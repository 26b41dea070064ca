import CcPanes.Codex.SessionPaths
import CcPanes.Daemon.IdentityEvents
import CcPanes.Foundation.SoleMatching
import CcPanes.TaskQueue.Models

/-!
# Transcripts of Pi and the launches they belong to

`backfill_pi_resume_session` and `scan_all` of `session_index_service.rs`, with the queries of
`history_repo.rs` they use.  A transcript gives its session id to the one launch that matches it.
The database answers each query.
-/

namespace CcPanes.SessionIndex
open CaseFolding Identity SoleMatching List

variable {rows : List LaunchRecord}

structure LaunchRecord where
  id : Nat
  projectPath : String
  launchedAt : String
  ptySessionId : Option String
  resumeSessionId : Option String
  cliTool : String
  runtimeKind : String
  wslDistro : Option String
  workspacePath : Option String
  launchCwd : Option String
  resumeSource : Option String
  deriving DecidableEq

/-- `ORDER BY launched_at DESC LIMIT`; rows of one time in the order of the table -/
def list (limit : Nat) (rows : List LaunchRecord) : List LaunchRecord :=
  (rows.mergeSort fun a b => b.launchedAt ≤ a.launchedAt).take limit

def findByResumeSessionId (rows : List LaunchRecord) (resumeSessionId : String) :
    Option LaunchRecord :=
  ((rows.filter fun r => r.resumeSessionId = some resumeSessionId).mergeSort
    fun a b => b.launchedAt ≤ a.launchedAt).head?

structure SessionStartedUpsertResult where
  recordId : Nat
  resumeSessionId : String
  resumeSource : Option String

def findByPty (rows : List LaunchRecord) (ptySessionId : String) : Option LaunchRecord :=
  ((rows.filter fun r => r.ptySessionId = some ptySessionId).mergeSort fun a b =>
    b.launchedAt < a.launchedAt || (b.launchedAt = a.launchedAt && b.id ≤ a.id)).head?

def updateResumeSessionWithSourceByPty (rows : List LaunchRecord)
    (ptySessionId resumeSessionId source : String) :
    Option SessionStartedUpsertResult × List LaunchRecord :=
  match findByPty rows ptySessionId with
  | none => (none, rows)
  | some existing =>
    if shouldRetainIncoming existing.resumeSource existing.resumeSessionId source
        resumeSessionId then
      (some ⟨existing.id, resumeSessionId, some source⟩,
        rows.map fun r => if r.id = existing.id then
          { r with resumeSessionId := some resumeSessionId, resumeSource := some source } else r)
    else
      (some ⟨existing.id, existing.resumeSessionId.getD resumeSessionId, existing.resumeSource⟩,
        rows)

/-! ## one transcript -/

structure ScanRoot where
  cliTool : String
  source : String
  wslDistro : Option String
  deriving DecidableEq

structure ParsedSessionTranscript where
  sessionId : String
  cwd : String
  headerTimestamp : Option String
  deriving DecidableEq

/-- a file that is new or has changed -/
structure Transcript where
  filePath : String
  root : ScanRoot
  parsed : ParsedSessionTranscript
  deriving DecidableEq

def piResumeMatchWindowSecs : Nat := 120

def eqIgnoreAsciiCase (a b : String) : Bool := toLower a.toList = toLower b.toList

def sameWslDistro (record root : Option String) : Bool :=
  match record, root with
  | none, none => true
  | some record, some root => eqIgnoreAsciiCase (trim record) (trim root)
  | _, _ => false

section
variable (tables : CaseTables) (parseRfc3339 : String → Option Int)

def normalizePath (path : String) : Path :=
  Codex.normalizeCrossPlatformComparePath tables (trim path).toList

def launchRecordMatchesCwd (record : LaunchRecord) (cwdNorm : Path) : Bool :=
  [record.launchCwd, record.workspacePath, some record.projectPath].any fun path =>
    match path.map (normalizePath tables) with
    | some candidate => candidate ≠ [] && candidate = cwdNorm
    | none => false

/-- times in nanoseconds; the seconds between are cut towards zero -/
def launchTimeMatches (headerTime : Int) (launchedAt : String) : Bool :=
  (parseRfc3339 launchedAt).any fun launchTime =>
    ((headerTime - launchTime).tdiv 1000000000).natAbs ≤ piResumeMatchWindowSecs

/-- what a record has in common with the transcript: CLI, runtime, distribution, directory, time -/
def sameLaunch (root : ScanRoot) (headerTime : Int) (cwdNorm : Path) (record : LaunchRecord) :
    Bool :=
  record.cliTool = root.cliTool &&
    eqIgnoreAsciiCase record.runtimeKind (if root.source = "wsl" then "wsl" else "local") &&
    sameWslDistro record.wslDistro root.wslDistro &&
    launchRecordMatchesCwd tables record cwdNorm &&
    launchTimeMatches parseRfc3339 headerTime record.launchedAt

/-- a record that has a PTY and no session id yet -/
def isCandidate (root : ScanRoot) (headerTime : Int) (cwdNorm : Path) (record : LaunchRecord) :
    Bool :=
  record.resumeSessionId.isNone && record.ptySessionId.isSome &&
    sameLaunch tables parseRfc3339 root headerTime cwdNorm record

/-- the table, the records loaded for the refresh, and what was bound, as it is logged -/
structure Scan where
  rows : List LaunchRecord
  records : List LaunchRecord
  bound : List (Transcript × LaunchRecord)

/-- `recordIndex` is that of `record` -/
def Scan.bind (s : Scan) (t : Transcript) (record : LaunchRecord) (recordIndex : Nat)
    (ptySessionId : String) : Scan :=
  match updateResumeSessionWithSourceByPty s.rows ptySessionId t.parsed.sessionId
    "pi-session-file" with
  | (none, rows) => { s with rows := rows }
  | (some selected, rows) =>
    { rows := rows
      records := s.records.modify recordIndex fun r =>
        { r with resumeSessionId := some selected.resumeSessionId
                 resumeSource := selected.resumeSource }
      bound :=
        if selected.resumeSessionId = t.parsed.sessionId then s.bound ++ [(t, record)]
        else s.bound }

def backfillPiResumeSession (s : Scan) (t : Transcript) : Scan :=
  if t.root.cliTool ≠ "pi" ∧ t.root.cliTool ≠ "omp" then s
  else
    match t.parsed.headerTimestamp.bind parseRfc3339 with
    | none => s
    | some headerTime =>
      let cwdNorm := normalizePath tables t.parsed.cwd
      if cwdNorm = [] then s
      else
        match s.records.zipIdx.filter fun record =>
          isCandidate tables parseRfc3339 t.root headerTime cwdNorm record.1 with
        | [(record, recordIndex)] =>
          match record.ptySessionId with
          | none => s
          | some ptySessionId =>
            match findByResumeSessionId s.rows t.parsed.sessionId with
            | some existing =>
              -- never moved to another PTY
              if existing.ptySessionId ≠ some ptySessionId then s
              else s.bind t record recordIndex ptySessionId
            | none => s.bind t record recordIndex ptySessionId
        | _ => s

/-- `scan_all`: the records are loaded once -/
def scanAll (rows : List LaunchRecord) (transcripts : List Transcript) : Scan :=
  transcripts.foldl (backfillPiResumeSession tables parseRfc3339) ⟨rows, list 2000 rows, []⟩

end

/-! ## what it is for -/

/-- launches with their PTYs, before a session id is known -/
structure FreshHistory where
  rows : List LaunchRecord
  ids : (rows.map LaunchRecord.id).Nodup
  ptys : (rows.map LaunchRecord.ptySessionId).Nodup
  launched : ∀ r ∈ rows, r.ptySessionId.isSome = true
  unbound : ∀ r ∈ rows, r.resumeSessionId = none

structure NewTranscripts where
  files : List Transcript
  distinct : files.Nodup

section
variable (tables : CaseTables) (parseRfc3339 : String → Option Int)

def matchesLaunch (t : Transcript) (record : LaunchRecord) : Bool :=
  (t.root.cliTool = "pi" || t.root.cliTool = "omp") &&
    (t.parsed.headerTimestamp.bind parseRfc3339).any fun headerTime =>
      normalizePath tables t.parsed.cwd ≠ [] &&
        sameLaunch tables parseRfc3339 t.root headerTime (normalizePath tables t.parsed.cwd) record

def Scan.Binds (s : Scan) (ptySessionId sessionId : String) : Prop :=
  ∃ r ∈ s.rows, r.ptySessionId = some ptySessionId ∧ r.resumeSessionId = some sessionId

/-- Whatever the order of the files, the same is bound, and only a transcript and a launch that match
each other and nothing else. -/
structure Unambiguous (history : FreshHistory) (files : List Transcript) : Prop where
  same : ∀ order, order.Perm files → ∀ ptySessionId sessionId,
    (scanAll tables parseRfc3339 history.rows order).Binds ptySessionId sessionId ↔
      (scanAll tables parseRfc3339 history.rows files).Binds ptySessionId sessionId
  exclusive : ∀ order, order.Perm files → ∀ t r,
    (t, r) ∈ (scanAll tables parseRfc3339 history.rows order).bound →
    matchesLaunch tables parseRfc3339 t r = true ∧
      (∀ t' ∈ files, matchesLaunch tables parseRfc3339 t' r = true → t' = t) ∧
      ∀ r' ∈ history.rows, matchesLaunch tables parseRfc3339 t r' = true → r' = r

end

section
variable {α β : Type} {l : List α} {f : α → β}

theorem filter_eq_singleton {g : α → β} [DecidableEq β] (h : (l.map g).Nodup) {a : α} (ha : a ∈ l) :
    l.filter (fun b => g b = g a) = [a] := by
  have hnodup : (l.filter fun b => g b = g a).Nodup := (List.Nodup.of_map g h).filter _
  refine perm_singleton.mp
    ((perm_ext_iff_of_nodup hnodup (nodup_singleton a)).mpr fun b => ?_)
  rw [mem_filter, mem_singleton, decide_eq_true_iff]
  constructor
  · exact fun hb => inj_on_of_nodup_map h hb.1 ha hb.2
  · rintro rfl
    exact ⟨ha, rfl⟩

theorem filter_zipIdx_cases (c : β → Bool) (d : α → Bool) (h : ∀ a ∈ l, c (f a) = d a) :
    (∃ a i, l.filter d = [a] ∧ l[i]? = some a ∧
      (l.map f).zipIdx.filter (fun x => c x.1) = [(f a, i)]) ∨
    ((∀ a, l.filter d ≠ [a]) ∧ ∀ x, (l.map f).zipIdx.filter (fun x => c x.1) ≠ [x]) := by
  have hfst : ((l.map f).zipIdx.filter fun x => c x.1).map Prod.fst = (l.filter d).map f := by
    have hmap : ((l.map f).zipIdx.filter fun x => c x.1).map Prod.fst =
        ((l.map f).zipIdx.map Prod.fst).filter c := filter_map.symm
    rw [hmap, zipIdx_map_fst, filter_map]
    exact congrArg _ (filter_congr h)
  by_cases hone : ∃ x, (l.map f).zipIdx.filter (fun x => c x.1) = [x]
  · obtain ⟨⟨b, i⟩, hx⟩ := hone
    rw [hx] at hfst
    obtain ⟨a, ha, rfl⟩ := map_eq_singleton_iff.mp hfst.symm
    have hmem : (f a, i) ∈ (l.map f).zipIdx.filter fun x => c x.1 := by
      rw [hx]
      exact mem_singleton_self _
    obtain ⟨hin, hc⟩ := mem_filter.mp hmem
    rw [mem_zipIdx_iff_getElem?, getElem?_map, Option.map_eq_some_iff] at hin
    obtain ⟨a', ha', hf⟩ := hin
    have hd : a' ∈ l.filter d := by
      rw [mem_filter, ← h a' (mem_of_getElem? ha'), hf]
      exact ⟨mem_of_getElem? ha', hc⟩
    rw [ha, mem_singleton] at hd
    exact .inl ⟨a, i, ha, hd ▸ ha', hx⟩
  · refine .inr ⟨fun a ha => hone ?_, fun x hx => hone ⟨x, hx⟩⟩
    rw [ha] at hfst
    obtain ⟨x, hx, -⟩ := map_eq_singleton_iff.mp hfst
    exact ⟨x, hx⟩

theorem modify_map {g : β → β} {f' : α → β} (hnodup : l.Nodup) {i : Nat} {a : α}
    (hi : l[i]? = some a) (ha : f' a = g (f a)) (hother : ∀ b ∈ l, b ≠ a → f' b = f b) :
    (l.map f).modify i g = l.map f' := by
  refine ext_getElem? fun j => ?_
  rw [getElem?_modify, getElem?_map, getElem?_map]
  cases hj : l[j]? with
  | none => rfl
  | some b =>
    by_cases hij : i = j
    · rw [← hij, hi] at hj
      cases hj
      simp [hij, ha]
    have hne : b ≠ a := by
      rintro rfl
      obtain ⟨hlen, -⟩ := List.getElem?_eq_some_iff.mp hi
      exact hij ((getElem?_inj hlen hnodup).mp (hi.trans hj.symm))
    simp [hij, hother b (mem_of_getElem? hj) hne]

end

theorem mem_list {n : Nat} {r : LaunchRecord} (h : r ∈ list n rows) :
    r ∈ rows := mem_mergeSort.mp (mem_of_mem_take h)

theorem list_nodup {n : Nat} (h : rows.Nodup) : (list n rows).Nodup :=
  ((mergeSort_perm _ _).nodup_iff.mpr h).sublist (take_sublist _ _)

theorem findByResumeSessionId_some {sessionId : String} {existing : LaunchRecord}
    (h : findByResumeSessionId rows sessionId = some existing) :
    existing ∈ rows ∧ existing.resumeSessionId = some sessionId := by
  have hmem := mem_mergeSort.mp (mem_of_mem_head? h)
  rw [mem_filter, decide_eq_true_iff] at hmem
  exact hmem

theorem findByResumeSessionId_none {sessionId : String}
    (h : findByResumeSessionId rows sessionId = none) :
    ∀ r ∈ rows, r.resumeSessionId ≠ some sessionId := by
  intro r hr heq
  have hmem : r ∈ rows.filter fun r => r.resumeSessionId = some sessionId :=
    mem_filter.mpr ⟨hr, decide_eq_true heq⟩
  have hnil := head?_eq_none_iff.mp h
  rw [← mem_mergeSort, hnil] at hmem
  cases hmem

/-! ## what a scan has bound -/

def LaunchRecord.mark (r : LaunchRecord) (t : Transcript) : LaunchRecord :=
  { r with resumeSessionId := some t.parsed.sessionId, resumeSource := some "pi-session-file" }

def given (taken : List (Transcript × LaunchRecord)) (r : LaunchRecord) : LaunchRecord :=
  match taken.find? fun t => t.2 = r with
  | some t => r.mark t.1
  | none => r

section
variable {taken : List (Transcript × LaunchRecord)} {r : LaunchRecord}

theorem given_cases (taken : List (Transcript × LaunchRecord)) (r : LaunchRecord) :
    (∃ t, (t, r) ∈ taken ∧ given taken r = r.mark t) ∨
    ((∀ t ∈ taken, t.2 ≠ r) ∧ given taken r = r) := by
  unfold given
  cases hfind : taken.find? fun t => t.2 = r with
  | some t =>
    have hr := find?_some hfind
    simp only [decide_eq_true_eq] at hr
    subst hr
    exact .inl ⟨t.1, mem_of_find?_eq_some hfind, rfl⟩
  | none =>
    refine .inr ⟨fun t ht heq => ?_, rfl⟩
    exact find?_eq_none.mp hfind t ht (decide_eq_true heq)

theorem given_free (h : ∀ t ∈ taken, t.2 ≠ r) : given taken r = r := by
  obtain ⟨t, ht, -⟩ | ⟨-, heq⟩ := given_cases taken r
  · exact absurd rfl (h _ ht)
  · exact heq

theorem given_mem (h : (taken.map Prod.snd).Nodup) {t : Transcript} (ht : (t, r) ∈ taken) :
    given taken r = r.mark t := by
  obtain ⟨t', ht', heq⟩ | ⟨hfree, -⟩ := given_cases taken r
  · obtain ⟨rfl, -⟩ := Prod.mk.inj (inj_on_of_nodup_map h ht' ht rfl)
    exact heq
  · exact absurd rfl (hfree _ ht)

theorem given_snoc_self (h : ∀ t ∈ taken, t.2 ≠ r) (t : Transcript) :
    given (taken ++ [(t, r)]) r = r.mark t := by
  have hnone : taken.find? (fun t => t.2 = r) = none :=
    find?_eq_none.mpr fun t ht heq => h t ht (of_decide_eq_true heq)
  have hself : [(t, r)].find? (fun t => t.2 = r) = some (t, r) :=
    find?_cons_of_pos (decide_eq_true rfl)
  unfold given
  rw [find?_append, hnone, Option.none_or, hself]

theorem given_snoc_other {p : LaunchRecord} (h : r ≠ p) (t : Transcript) :
    given (taken ++ [(t, p)]) r = given taken r := by
  have hnone : [(t, p)].find? (fun t => t.2 = r) = none :=
    find?_cons_of_neg fun heq => h (of_decide_eq_true heq).symm
  unfold given
  rw [find?_append, hnone, Option.or_none]

@[simp] theorem given_id : (given taken r).id = r.id := by
  obtain ⟨t, -, heq⟩ | ⟨-, heq⟩ := given_cases taken r
  · rw [heq]
    rfl
  · rw [heq]

@[simp] theorem given_ptySessionId : (given taken r).ptySessionId = r.ptySessionId := by
  obtain ⟨t, -, heq⟩ | ⟨-, heq⟩ := given_cases taken r
  · rw [heq]
    rfl
  · rw [heq]

theorem given_resumeSessionId (h : r.resumeSessionId = none) :
    (given taken r).resumeSessionId.isNone = !(taken.any fun t => t.2 = r) := by
  obtain ⟨t, ht, heq⟩ | ⟨hfree, heq⟩ := given_cases taken r
  · have htaken : (taken.any fun t => decide (t.2 = r)) = true :=
      any_eq_true.mpr ⟨_, ht, decide_eq_true rfl⟩
    rw [heq, htaken]
    rfl
  have hnone : (taken.any fun t => decide (t.2 = r)) = false :=
    any_eq_false.mpr fun t ht heq => hfree t ht (of_decide_eq_true heq)
  rw [heq, hnone, h]
  rfl

theorem sameLaunch_given (tables : CaseTables) (parseRfc3339 : String → Option Int)
    (root : ScanRoot) (headerTime : Int) (cwdNorm : Path) :
    sameLaunch tables parseRfc3339 root headerTime cwdNorm (given taken r) =
      sameLaunch tables parseRfc3339 root headerTime cwdNorm r := by
  obtain ⟨t, -, heq⟩ | ⟨-, heq⟩ := given_cases taken r
  · rw [heq]
    rfl
  · rw [heq]

end

/-- the rows and the loaded records are those of the start, but for what is taken -/
structure Scan.Follows (history : FreshHistory) (s : Scan)
    (taken : List (Transcript × LaunchRecord)) : Prop where
  rows : s.rows = history.rows.map (given taken)
  records : s.records = (list 2000 history.rows).map (given taken)
  bound : s.bound = taken
  listed : ∀ t ∈ taken, t.2 ∈ list 2000 history.rows
  once : (taken.map Prod.snd).Nodup

section
variable {history : FreshHistory} {s : Scan} {taken : List (Transcript × LaunchRecord)}
  {r : LaunchRecord} {t : Transcript}

variable {ptySessionId : String} {sessionId : String}

theorem FreshHistory.nodup (history : FreshHistory) : history.rows.Nodup :=
  List.Nodup.of_map _ history.ids

theorem findByPty_eq (h : s.Follows history taken) (hr : r ∈ history.rows)
    (hpty : r.ptySessionId = some ptySessionId) (hfree : ∀ t ∈ taken, t.2 ≠ r) :
    findByPty s.rows ptySessionId = some r := by
  have hone : (history.rows.map (given taken)).filter
      (fun r' => r'.ptySessionId = some ptySessionId) = [r] := by
    have hkeys : ∀ r' ∈ history.rows, decide ((given taken r').ptySessionId = some ptySessionId) =
        decide (r'.ptySessionId = r.ptySessionId) := by
      intro r' _
      rw [given_ptySessionId, hpty]
    rw [filter_map, filter_congr (q := fun r' => r'.ptySessionId = r.ptySessionId) hkeys,
      filter_eq_singleton history.ptys hr]
    exact congrArg (fun r => [r]) (given_free hfree)
  rw [findByPty, h.rows, hone, mergeSort_singleton]
  rfl

theorem Scan.Follows.bind (h : s.Follows history taken) (hr : r ∈ list 2000 history.rows)
    (hpty : r.ptySessionId = some ptySessionId) (hfree : ∀ t ∈ taken, t.2 ≠ r) {i : Nat}
    (hi : (list 2000 history.rows)[i]? = some r) :
    (s.bind t r i ptySessionId).Follows history (taken ++ [(t, r)]) := by
  have hrow := mem_list hr
  have hupdate : updateResumeSessionWithSourceByPty s.rows ptySessionId t.parsed.sessionId
      "pi-session-file" = (some ⟨r.id, t.parsed.sessionId, some "pi-session-file"⟩,
        s.rows.map fun r' => if r'.id = r.id then r'.mark t else r') := by
    have hretain : shouldRetainIncoming r.resumeSource r.resumeSessionId "pi-session-file"
        t.parsed.sessionId = true := by
      rw [history.unbound r hrow]
      unfold shouldRetainIncoming
      split
      · next heq => cases heq
      · rfl
    rw [updateResumeSessionWithSourceByPty, findByPty_eq h hrow hpty hfree]
    dsimp only
    rw [hretain, if_pos rfl]
    rfl
  have hself := given_snoc_self hfree t
  have hother : ∀ r', r' ≠ r → given (taken ++ [(t, r)]) r' = given taken r' :=
    fun r' hne => given_snoc_other hne t
  rw [Scan.bind, hupdate]
  dsimp only
  rw [if_pos rfl]
  refine ⟨?_, ?_, ?_, ?_, ?_⟩
  · show s.rows.map _ = _
    rw [h.rows, map_map]
    refine map_congr_left fun r' hr' => ?_
    rw [Function.comp_apply, given_id]
    by_cases heq : r' = r
    · rw [heq, if_pos rfl, hself, given_free hfree]
    · have hid : r'.id ≠ r.id :=
        fun hid => heq (inj_on_of_nodup_map history.ids hr' hrow hid)
      rw [if_neg hid, hother r' heq]
  · show s.records.modify i _ = _
    rw [h.records]
    refine modify_map (list_nodup history.nodup) hi ?_ fun r' _ hne => hother r' hne
    rw [hself, given_free hfree]
    rfl
  · show s.bound ++ [(t, r)] = _
    rw [h.bound]
  · intro t' ht'
    obtain ht' | ht' := mem_append.mp ht'
    · exact h.listed t' ht'
    · rw [mem_singleton.mp ht']
      exact hr
  · rw [map_append, nodup_append']
    refine ⟨h.once, nodup_singleton _, fun r' hr' heq => ?_⟩
    obtain ⟨t', ht', rfl⟩ := mem_map.mp hr'
    exact hfree t' ht' (mem_singleton.mp heq)

theorem findByResumeSessionId_taken (h : s.Follows history taken) {existing : LaunchRecord}
    (hfind : findByResumeSessionId s.rows sessionId = some existing) :
    ∃ t ∈ taken, t.1.parsed.sessionId = sessionId ∧ t.2 ∈ history.rows ∧
      existing.ptySessionId = t.2.ptySessionId := by
  obtain ⟨hin, hid⟩ := findByResumeSessionId_some hfind
  rw [h.rows] at hin
  obtain ⟨r', hr', rfl⟩ := mem_map.mp hin
  obtain ⟨t', ht', heq⟩ | ⟨-, heq⟩ := given_cases taken r'
  · rw [heq] at hid
    exact ⟨(t', r'), ht', Option.some.inj hid, hr', given_ptySessionId⟩
  · rw [heq, history.unbound r' hr'] at hid
    cases hid

theorem findByResumeSessionId_free (h : s.Follows history taken)
    (hfind : findByResumeSessionId s.rows sessionId = none) :
    ∀ t ∈ taken, t.1.parsed.sessionId ≠ sessionId := by
  intro t ht hid
  have hrow : given taken t.2 ∈ s.rows := by
    rw [h.rows]
    exact mem_map_of_mem (mem_list (h.listed t ht))
  have hmark := given_mem h.once ht
  rw [hmark] at hrow
  exact findByResumeSessionId_none hfind _ hrow (congrArg some hid)

variable (tables : CaseTables) (parseRfc3339 : String → Option Int)

def sessionIdOf (t : Transcript) : String := t.parsed.sessionId

theorem visit_of_no_match (h : ∀ r, matchesLaunch tables parseRfc3339 t r = false) :
    visit (matchesLaunch tables parseRfc3339) sessionIdOf (list 2000 history.rows) taken t =
      taken := by
  refine visit_not_sole (fun r hsole => ?_) fun t' _ => h t'.2
  have hfits := fits_of_sole hsole
  rw [h r] at hfits
  cases hfits

theorem backfill_follows (h : s.Follows history taken) (t : Transcript) :
    (backfillPiResumeSession tables parseRfc3339 s t).Follows history
      (visit (matchesLaunch tables parseRfc3339) sessionIdOf (list 2000 history.rows) taken t) := by
  by_cases htool : t.root.cliTool ≠ "pi" ∧ t.root.cliTool ≠ "omp"
  · rw [visit_of_no_match, backfillPiResumeSession, if_pos htool]
    · exact h
    · intro r
      simp [matchesLaunch, htool.1, htool.2]
  have hpi : (decide (t.root.cliTool = "pi") || decide (t.root.cliTool = "omp")) = true := by
    rw [Bool.or_eq_true, decide_eq_true_iff, decide_eq_true_iff]
    by_contra hno
    exact htool ⟨fun hp => hno (.inl hp), fun ho => hno (.inr ho)⟩
  cases hheader : t.parsed.headerTimestamp.bind parseRfc3339 with
  | none =>
    rw [visit_of_no_match, backfillPiResumeSession, if_neg htool, hheader]
    · exact h
    · intro r
      simp [matchesLaunch, hheader]
  | some headerTime =>
  by_cases hcwd : normalizePath tables t.parsed.cwd = []
  · rw [visit_of_no_match, backfillPiResumeSession, if_neg htool, hheader]
    · dsimp only
      rw [if_pos hcwd]
      exact h
    · intro r
      simp [matchesLaunch, hheader, hcwd]
  have hmatches : ∀ r, matchesLaunch tables parseRfc3339 t r =
      sameLaunch tables parseRfc3339 t.root headerTime (normalizePath tables t.parsed.cwd) r := by
    intro r
    rw [matchesLaunch, hpi, hheader]
    simp [hcwd]
  -- a loaded record is a candidate when it matches and is not taken
  have hcandidate : ∀ r ∈ list 2000 history.rows,
      isCandidate tables parseRfc3339 t.root headerTime (normalizePath tables t.parsed.cwd)
          (given taken r) =
        (matchesLaunch tables parseRfc3339 t r && !(taken.any fun t => t.2 = r)) := by
    intro r hr
    rw [isCandidate, given_resumeSessionId (history.unbound r (mem_list hr)), given_ptySessionId,
      history.launched r (mem_list hr), sameLaunch_given, hmatches, Bool.and_true, Bool.and_comm]
  rw [backfillPiResumeSession, if_neg htool, hheader]
  dsimp only
  rw [if_neg hcwd, h.records]
  obtain ⟨r, i, hone, hi, hfilter⟩ | ⟨hno, hno'⟩ := filter_zipIdx_cases
    (isCandidate tables parseRfc3339 t.root headerTime (normalizePath tables t.parsed.cwd))
    (fun r => matchesLaunch tables parseRfc3339 t r && !(taken.any fun t => t.2 = r)) hcandidate
  · have hr : r ∈ list 2000 history.rows := mem_of_getElem? hi
    have hfree : ∀ t ∈ taken, t.2 ≠ r := by
      intro t' ht' heq
      have hmem : r ∈ (list 2000 history.rows).filter _ := hone ▸ mem_singleton_self r
      have htaken : (taken.any fun t => decide (t.2 = r)) = true :=
        any_eq_true.mpr ⟨t', ht', decide_eq_true heq⟩
      have hpick := (mem_filter.mp hmem).2
      rw [htaken, Bool.not_true, Bool.and_false] at hpick
      cases hpick
    obtain ⟨ptySessionId, hpty⟩ := Option.isSome_iff_exists.mp (history.launched r (mem_list hr))
    have hcandidates : candidates (matchesLaunch tables parseRfc3339) (list 2000 history.rows)
        taken t = [r] := hone
    rw [hfilter, given_free hfree, visit, hcandidates]
    dsimp only
    rw [hpty]
    cases hfind : findByResumeSessionId s.rows t.parsed.sessionId with
    | some existing =>
      obtain ⟨t', ht', hid, hrow, hptys⟩ := findByResumeSessionId_taken h hfind
      have hother : existing.ptySessionId ≠ some ptySessionId := by
        rw [hptys, ← hpty]
        exact fun heq => hfree t' ht' (inj_on_of_nodup_map history.ptys hrow (mem_list hr) heq)
      have hname : (taken.any fun t' => decide (sessionIdOf t'.1 = sessionIdOf t)) = true :=
        any_eq_true.mpr ⟨t', ht', decide_eq_true hid⟩
      dsimp only
      rw [if_pos hother, if_pos hname]
      exact h
    | none =>
      have hname : (taken.any fun t' => decide (sessionIdOf t'.1 = sessionIdOf t)) = false :=
        any_eq_false.mpr fun t' ht' heq =>
          findByResumeSessionId_free h hfind t' ht' (of_decide_eq_true heq)
      rw [hname, if_neg Bool.false_ne_true]
      exact h.bind hr hpty hfree hi
  · have hvisit : visit (matchesLaunch tables parseRfc3339) sessionIdOf (list 2000 history.rows)
        taken t = taken := by
      obtain heq | ⟨p, hp, -, -⟩ := visit_cases (matchesLaunch tables parseRfc3339) sessionIdOf
        (list 2000 history.rows) taken t
      · exact heq
      · exact absurd hp (hno p)
    rw [hvisit]
    split
    · next record recordIndex heq => exact absurd heq (hno' (record, recordIndex))
    · exact h

def boundBy (history : FreshHistory) (order : List Transcript) : List (Transcript × LaunchRecord) :=
  visitAll (matchesLaunch tables parseRfc3339) sessionIdOf (list 2000 history.rows) order

theorem foldl_follows (h : s.Follows history taken) (order : List Transcript) :
    (order.foldl (backfillPiResumeSession tables parseRfc3339) s).Follows history
      (order.foldl (visit (matchesLaunch tables parseRfc3339) sessionIdOf (list 2000 history.rows))
        taken) := by
  induction order generalizing s taken with
  | nil => exact h
  | cons t order ih => exact ih (backfill_follows tables parseRfc3339 h t)

theorem scanAll_follows (history : FreshHistory) (order : List Transcript) :
    (scanAll tables parseRfc3339 history.rows order).Follows history
      (boundBy tables parseRfc3339 history order) := by
  have hnone : ∀ rows : List LaunchRecord, rows.map (given []) = rows :=
    fun rows => map_id'' (fun _ => rfl) rows
  apply foldl_follows
  exact ⟨(hnone _).symm, (hnone _).symm, rfl, by simp, nodup_nil⟩

theorem binds_iff (h : s.Follows history taken) (ptySessionId sessionId : String) :
    s.Binds ptySessionId sessionId ↔ ∃ t ∈ taken, t.2.ptySessionId = some ptySessionId ∧
      t.1.parsed.sessionId = sessionId := by
  unfold Scan.Binds
  rw [h.rows]
  constructor
  · rintro ⟨r', hr', hpty, hid⟩
    obtain ⟨r, hr, rfl⟩ := mem_map.mp hr'
    rw [given_ptySessionId] at hpty
    obtain ⟨t, ht, heq⟩ | ⟨-, heq⟩ := given_cases taken r
    · rw [heq] at hid
      exact ⟨(t, r), ht, hpty, Option.some.inj hid⟩
    · rw [heq, history.unbound r hr] at hid
      cases hid
  · rintro ⟨t, ht, hpty, hid⟩
    refine ⟨given taken t.2, mem_map_of_mem (mem_list (h.listed t ht)), ?_, ?_⟩
    · rw [given_ptySessionId, hpty]
    · rw [given_mem h.once ht]
      exact congrArg some hid

theorem binds_iff_given (history : FreshHistory) (order : List Transcript) {r : LaunchRecord}
    (hr : r ∈ history.rows) (hpty : r.ptySessionId = some ptySessionId) (sessionId : String) :
    (scanAll tables parseRfc3339 history.rows order).Binds ptySessionId sessionId ↔
      Given (matchesLaunch tables parseRfc3339) sessionIdOf (list 2000 history.rows) order
        sessionId r := by
  have h := scanAll_follows tables parseRfc3339 history order
  rw [binds_iff h]
  constructor
  · rintro ⟨⟨t, r'⟩, ht, hpty', hid⟩
    have hsame : r' = r := inj_on_of_nodup_map history.ptys (mem_list (h.listed _ ht)) hr
      (hpty'.trans hpty.symm)
    exact ⟨t, hsame ▸ ht, hid⟩
  · rintro ⟨t, ht, hid⟩
    exact ⟨(t, r), ht, hpty, hid⟩

theorem mem_of_given {history : FreshHistory} {order : List Transcript}
    {r : LaunchRecord} (h : Given (matchesLaunch tables parseRfc3339) sessionIdOf
      (list 2000 history.rows) order sessionId r) : r ∈ history.rows := by
  obtain ⟨t, ht, -⟩ := h
  exact mem_list ((scanAll_follows tables parseRfc3339 history order).listed _ ht)

theorem settled_of_unambiguous {files : List Transcript}
    (h : Unambiguous tables parseRfc3339 history files) :
    Settled (matchesLaunch tables parseRfc3339) sessionIdOf (list 2000 history.rows) history.rows
      files := by
  refine ⟨fun order hperm k r => ?_, fun order hperm t r hin => ?_⟩
  · by_cases hr : r ∈ history.rows
    · obtain ⟨ptySessionId, hpty⟩ := Option.isSome_iff_exists.mp (history.launched r hr)
      rw [← binds_iff_given tables parseRfc3339 history order hr hpty k,
        ← binds_iff_given tables parseRfc3339 history files hr hpty k]
      exact h.same order hperm ptySessionId k
    · exact iff_of_false (fun hg => hr (mem_of_given tables parseRfc3339 hg))
        fun hg => hr (mem_of_given tables parseRfc3339 hg)
  · refine h.exclusive order hperm t r ?_
    rw [(scanAll_follows tables parseRfc3339 history order).bound]
    exact hin

theorem unambiguous_of_settled {files : List Transcript}
    (h : Settled (matchesLaunch tables parseRfc3339) sessionIdOf (list 2000 history.rows)
      history.rows files) : Unambiguous tables parseRfc3339 history files := by
  refine ⟨fun order hperm ptySessionId sessionId => ?_, fun order hperm t r hin => ?_⟩
  · have hbinds : ∀ order, (scanAll tables parseRfc3339 history.rows order).Binds ptySessionId
        sessionId ↔ ∃ r, r.ptySessionId = some ptySessionId ∧
          Given (matchesLaunch tables parseRfc3339) sessionIdOf (list 2000 history.rows) order
            sessionId r := by
      intro order
      rw [binds_iff (scanAll_follows tables parseRfc3339 history order)]
      constructor
      · rintro ⟨⟨t, r⟩, ht, hpty, hid⟩
        exact ⟨r, hpty, t, ht, hid⟩
      · rintro ⟨r, hpty, t, ht, hid⟩
        exact ⟨(t, r), ht, hpty, hid⟩
    rw [hbinds, hbinds]
    exact exists_congr fun r => and_congr_right fun _ => h.same order hperm sessionId r
  · rw [(scanAll_follows tables parseRfc3339 history order).bound] at hin
    exact h.exclusive order hperm t r hin

end

/-- The bindings are unambiguous if and only if a transcript with just one launch among those loaded
is the only one of this launch, has no other launch among those not loaded, and its session id is
that of no other such transcript. -/
theorem pi_binding_iff (tables : CaseTables) (parseRfc3339 : String → Option Int)
    (history : FreshHistory) (files : NewTranscripts) :
    Unambiguous tables parseRfc3339 history files.files ↔
      Clear (matchesLaunch tables parseRfc3339) sessionIdOf (list 2000 history.rows) history.rows
        files.files :=
  ⟨fun h => (settled_iff files.distinct).mp (settled_of_unambiguous tables parseRfc3339 h),
    fun h => unambiguous_of_settled tables parseRfc3339 ((settled_iff files.distinct).mpr h)⟩

def midnight : String := "2026-08-18T00:00:00Z"

/-- what `parse_from_rfc3339` gives for this time -/
def parseMidnight (timestamp : String) : Option Int :=
  if timestamp = midnight then some (1787011200 * 1000000000) else none

def piLaunch : LaunchRecord :=
  ⟨1, "/workspace/pi", midnight, some "pty-pi", none, "pi", "local", none, none, none, none⟩

def oneLaunch : FreshHistory where
  rows := [piLaunch]
  ids := List.nodup_singleton _
  ptys := List.nodup_singleton _
  launched := by decide
  unbound := by decide

def piTranscript (sessionId : String) : Transcript :=
  ⟨sessionId, ⟨"pi", "local", none⟩, ⟨sessionId, "/workspace/pi", some midnight⟩⟩

theorem two_transcripts_one_launch :
    ¬Unambiguous asciiTables parseMidnight oneLaunch [piTranscript "a", piTranscript "b"] := by
  intro h
  have hclear := (settled_of_unambiguous asciiTables parseMidnight h).clear
  have hlist : list 2000 oneLaunch.rows = [piLaunch] := by
    rw [list, oneLaunch, mergeSort_singleton]
    rfl
  rw [hlist] at hclear
  have hsole : Sole (matchesLaunch asciiTables parseMidnight) [piLaunch] (piTranscript "a")
      piLaunch := by
    unfold Sole
    decide
  have hsame := hclear.rival (piTranscript "a") (by decide) _ hsole (piTranscript "b") (by decide)
    (by decide)
  exact absurd hsame (by decide)

end CcPanes.SessionIndex

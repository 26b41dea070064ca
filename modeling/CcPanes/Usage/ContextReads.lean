import CcPanes.Foundation.Run
import CcPanes.Usage.ContextUsage
import Mathlib.Logic.Function.Basic

/-!
# Reading the context usage again and again

`context_usage_for_pty` of `usage_stats_service.rs`.  For every PTY it keeps what it read last, with
the length and the time of the file, and reads on from there.  A read comes with what
`context_request` and `find_context_session_file` give: the resume id, and the file that is found
for it now.  The files of the transcripts grow, and they can be moved.
-/

namespace CcPanes.ContextUsage
open Run Option Function

structure TranscriptFile where
  content : Bytes
  modifiedAtMs : Nat
  isFile : Bool

def fileIdentity (file : TranscriptFile) : Nat × Nat := (file.content.length, file.modifiedAtMs)

structure ContextFileCache where
  path : String
  resumeId : String
  fileIdentity : Nat × Nat
  fileLen : Nat
  modifiedAtMs : Nat
  byteOffset : Nat
  observation : Option ContextObservation
  identity_eq : fileIdentity = (fileLen, modifiedAtMs)

/-- the file looks as it did when the entry was made -/
def ContextFileCache.unchanged (entry : ContextFileCache) (path resumeId : String)
    (file : TranscriptFile) : Bool :=
  entry.path = path && entry.resumeId = resumeId &&
    entry.fileIdentity = ContextUsage.fileIdentity file && entry.fileLen = file.content.length &&
    entry.modifiedAtMs = file.modifiedAtMs

def ContextFileCache.grown (entry : ContextFileCache) (path resumeId : String)
    (file : TranscriptFile) : Bool :=
  entry.path = path && entry.resumeId = resumeId &&
    entry.fileIdentity = ContextUsage.fileIdentity file && entry.fileLen ≤ file.content.length &&
    entry.modifiedAtMs ≤ file.modifiedAtMs

def fromOffset (cached : Option ContextFileCache) (path resumeId : String)
    (file : TranscriptFile) : Nat :=
  ((cached.filter fun entry => entry.grown path resumeId file).map (·.byteOffset)).getD 0

structure ContextReads where
  /-- what is, or was, at a path -/
  files : String → TranscriptFile
  contextFileCache : String → Option ContextFileCache

inductive ContextAction where
  | append (path : String) (bytes : Bytes) (modifiedAtMs : Nat)
  /-- a file is created, moved away, or moved back -/
  | place (path : String) (isFile : Bool)
  | read (ptySessionId resumeId : String) (found : Option String)

namespace ContextReads

def start : ContextReads := ⟨fun _ => ⟨[], 0, false⟩, fun _ => none⟩

section
variable (serde : SerdeJson) (cliOf : String → ContextCli)

def cachedContextPath (s : ContextReads) (ptySessionId resumeId : String) : Option String :=
  (s.contextFileCache ptySessionId).bind fun entry =>
    if entry.resumeId = resumeId then some entry.path else none

def readLatestContextUsage (cli : ContextCli) (content : Bytes) (fromByteOffset : Nat) :
    Except String (Option ContextObservation × Nat) :=
  ((cli.reader serde).readLatest content fromByteOffset).map fun (latest, offset) =>
    (latest.bind cli.observation, offset)

/-- `.ok none` waits for the first response -/
def readContextSnapshot (s : ContextReads) (ptySessionId resumeId path : String) :
    ContextReads × Except String (Option ContextObservation) :=
  let file := s.files path
  if !file.isFile then (s, .error "SOURCE_UNAVAILABLE")
  else
    let cached := s.contextFileCache ptySessionId
    match cached.filter fun entry => entry.unchanged path resumeId file with
    | some entry => (s, .ok entry.observation)
    | none =>
      match readLatestContextUsage serde (cliOf ptySessionId) file.content
          (fromOffset cached path resumeId file) with
      | .error _ => (s, .error "SOURCE_UNAVAILABLE")
      | .ok (newObservation, byteOffset) =>
        let observation := newObservation.or (cached.bind (·.observation))
        let entry : ContextFileCache :=
          { path, resumeId, fileIdentity := fileIdentity file, fileLen := file.content.length
            modifiedAtMs := file.modifiedAtMs, byteOffset, observation, identity_eq := rfl }
        ({ s with
            contextFileCache := Function.update s.contextFileCache ptySessionId (some entry) },
          .ok observation)

def contextUsageForPty (s : ContextReads) (ptySessionId resumeId : String)
    (found : Option String) : ContextReads × Except String (Option ContextObservation) :=
  let path := ((s.cachedContextPath ptySessionId resumeId).filter fun path =>
    (s.files path).isFile).or found
  match path with
  | none => (s, .error "SESSION_NOT_FOUND")
  | some path => s.readContextSnapshot serde cliOf ptySessionId resumeId path

def step (s : ContextReads) : ContextAction → ContextReads
  | .append path bytes modifiedAtMs =>
    { s with
      files := Function.update s.files path
        { s.files path with content := (s.files path).content ++ bytes, modifiedAtMs } }
  | .place path isFile =>
    { s with files := Function.update s.files path { s.files path with isFile } }
  | .read ptySessionId resumeId found =>
    (s.contextUsageForPty serde cliOf ptySessionId resumeId found).1

/-! ## a single reading -/

def fullObservation (cli : ContextCli) (content : Bytes) :
    Except String (Option ContextObservation) :=
  ((cli.reader serde).fullReading content).map fun latest => latest.bind cli.observation

def fullSnapshot (s : ContextReads) (ptySessionId : String) (found : Option String) :
    Except String (Option ContextObservation) :=
  match found with
  | none => .error "SESSION_NOT_FOUND"
  | some path =>
    if !(s.files path).isFile then .error "SOURCE_UNAVAILABLE"
    else (fullObservation serde (cliOf ptySessionId) (s.files path).content).mapError fun _ =>
      "SOURCE_UNAVAILABLE"

def ReadsRight (s : ContextReads) : ContextAction → Prop
  | .append _ _ _ => True
  | .place _ _ => True
  | .read ptySessionId resumeId found =>
    (s.contextUsageForPty serde cliOf ptySessionId resumeId found).2 =
      s.fullSnapshot serde cliOf ptySessionId found

def Counted (cli : ContextCli) (content : Bytes) : Prop :=
  ∃ u, (cli.reader serde).lastUsage content = some u ∧
    ∀ model, (cli.observation (u model)).isSome = true

/-- a file that is read: it is not longer than the limit -/
structure FileOk (s : ContextReads) (ptySessionId path : String) : Prop where
  within : ((cliOf ptySessionId).reader serde).Within (s.files path).content
  counted : Counted serde (cliOf ptySessionId) (s.files path).content ∨
    ∀ entry, s.contextFileCache ptySessionId = some entry → entry.observation = none

structure ReadOk (s : ContextReads) (ptySessionId resumeId : String) (found : Option String) :
    Prop where
  /-- a file that was read for this resume id, and is there, is the one that is found -/
  settled : ∀ path, s.cachedContextPath ptySessionId resumeId = some path →
    (s.files path).isFile = true → found = some path
  fileOk : ∀ path, found = some path → (s.files path).isFile = true →
    (s.files path).content.length ≤ ((cliOf ptySessionId).reader serde).maxFileBytes →
      FileOk serde cliOf s ptySessionId path

def Meets (s : ContextReads) : ContextAction → Prop
  | .append _ _ _ => True
  | .place _ _ => True
  | .read ptySessionId resumeId found => ReadOk serde cliOf s ptySessionId resumeId found

/-- an entry is right as long as its file has its length -/
def Fresh (s : ContextReads) : Prop :=
  ∀ ptySessionId entry, s.contextFileCache ptySessionId = some entry →
    entry.fileLen ≤ (s.files entry.path).content.length ∧
      ((s.files entry.path).content.length = entry.fileLen →
        fullObservation serde (cliOf ptySessionId) (s.files entry.path).content =
          .ok entry.observation)

end

/-! ## one read -/

/-- **A file that has changed is read from its start**: an entry that says where to read on has the
length and the time of the file. -/
theorem fromOffset_eq_zero {cached : Option ContextFileCache} {path resumeId : String}
    {file : TranscriptFile}
    (h : (cached.filter fun entry => entry.unchanged path resumeId file) = none) :
    fromOffset cached path resumeId file = 0 := by
  unfold fromOffset
  cases cached with
  | none => rfl
  | some entry =>
    have hgrown : entry.grown path resumeId file = false := by
      by_contra hgrown
      have hchanged : ¬ entry.unchanged path resumeId file = true :=
        filter_eq_none_iff.mp h entry rfl
      simp only [Bool.not_eq_false, ContextFileCache.grown, Bool.and_eq_true,
        decide_eq_true_eq] at hgrown
      obtain ⟨⟨⟨⟨hpath, hresume⟩, hidentity⟩, -⟩, -⟩ := hgrown
      have hfile := hidentity
      rw [entry.identity_eq] at hfile
      obtain ⟨hlen, htime⟩ := Prod.mk.inj hfile
      apply hchanged
      simp [ContextFileCache.unchanged, hpath, hresume, hidentity, hlen, htime]
    rw [filter_some, hgrown]
    rfl

section
variable {serde : SerdeJson} {cliOf : String → ContextCli}

theorem Counted.isSome {cli : ContextCli} {content : Bytes} (h : Counted serde cli content)
    {observation : Option ContextObservation}
    (hfull : fullObservation serde cli content = .ok observation) : observation.isSome = true := by
  obtain ⟨u, hu, hobserved⟩ := h
  unfold fullObservation TranscriptReader.fullReading at hfull
  split at hfull
  · cases hfull
  obtain ⟨model, hmodel⟩ :=
    (cli.reader serde).latest_eq (CompleteLines.completeLines newline content)
  rw [hmodel] at hfull
  have hlast : ((CompleteLines.completeLines newline content).filterMap
    (cli.reader serde).usageLine).getLast? = some u := hu
  rw [hlast] at hfull
  have hobservation := Except.ok.inj hfull
  rw [← hobservation]
  exact hobserved model

variable {s : ContextReads} {ptySessionId resumeId : String}

theorem Fresh.insert (hs : Fresh serde cliOf s) {entry : ContextFileCache}
    (hlen : entry.fileLen = (s.files entry.path).content.length)
    (hfull : fullObservation serde (cliOf ptySessionId) (s.files entry.path).content =
      .ok entry.observation) :
    Fresh serde cliOf
      { s with
        contextFileCache := Function.update s.contextFileCache ptySessionId (some entry) } := by
  intro ptySessionId' entry' hentry
  by_cases hpty : ptySessionId' = ptySessionId
  · subst hpty
    have hentry : update s.contextFileCache ptySessionId' (some entry) ptySessionId' =
      some entry' := hentry
    rw [update_self] at hentry
    cases hentry
    exact ⟨Nat.le_of_eq hlen, fun _ => hfull⟩
  · have hentry : update s.contextFileCache ptySessionId (some entry) ptySessionId' =
      some entry' := hentry
    rw [update_of_ne hpty] at hentry
    exact hs ptySessionId' entry' hentry

theorem readLatestContextUsage_eq {cli : ContextCli} {content : Bytes}
    (h : (cli.reader serde).Within content) :
    (readLatestContextUsage serde cli content 0).map (·.1) = fullObservation serde cli content := by
  unfold readLatestContextUsage fullObservation
  rw [← (cli.reader serde).readLatest_eq h]
  cases (cli.reader serde).readLatest content 0 with
  | error => rfl
  | ok => rfl

theorem readLatestContextUsage_of_lt {cli : ContextCli} {content : Bytes}
    (h : (cli.reader serde).maxFileBytes < content.length) (offset : Nat) :
    readLatestContextUsage serde cli content offset = .error (cli.reader serde).tooLarge ∧
      fullObservation serde cli content = .error (cli.reader serde).tooLarge := by
  unfold readLatestContextUsage fullObservation TranscriptReader.readLatest
    TranscriptReader.fullReading
  rw [if_pos h, if_pos h]
  exact ⟨rfl, rfl⟩

/-- **A read of the right file.** -/
theorem readContextSnapshot_right (hs : Fresh serde cliOf s) {path : String}
    (hfile : (s.files path).isFile = true →
      (s.files path).content.length ≤ ((cliOf ptySessionId).reader serde).maxFileBytes →
        FileOk serde cliOf s ptySessionId path) :
    (s.readContextSnapshot serde cliOf ptySessionId resumeId path).2 =
        s.fullSnapshot serde cliOf ptySessionId (some path) ∧
      Fresh serde cliOf (s.readContextSnapshot serde cliOf ptySessionId resumeId path).1 := by
  unfold readContextSnapshot fullSnapshot
  dsimp only
  cases hisFile : (s.files path).isFile with
  | false => exact ⟨rfl, hs⟩
  | true =>
    rw [if_neg (by decide), if_neg (by decide)]
    cases hcached : (s.contextFileCache ptySessionId).filter fun entry =>
        entry.unchanged path resumeId (s.files path) with
    | some entry =>
      -- the file has the length it had when the entry was made
      obtain ⟨hentry, hunchanged⟩ := filter_eq_some_iff.mp hcached
      simp only [ContextFileCache.unchanged, Bool.and_eq_true, decide_eq_true_eq] at hunchanged
      obtain ⟨⟨⟨⟨rfl, -⟩, -⟩, hlen⟩, -⟩ := hunchanged
      have hfull := (hs ptySessionId entry hentry).2 hlen.symm
      dsimp only
      rw [hfull]
      exact ⟨rfl, hs⟩
    | none =>
      rw [fromOffset_eq_zero hcached]
      dsimp only
      by_cases hlen : ((cliOf ptySessionId).reader serde).maxFileBytes <
          (s.files path).content.length
      · obtain ⟨hread, hfull⟩ := readLatestContextUsage_of_lt hlen 0
        rw [hread, hfull]
        exact ⟨rfl, hs⟩
      have hok := hfile hisFile (Nat.not_lt.mp hlen)
      have hfull := readLatestContextUsage_eq hok.within
      cases hread : readLatestContextUsage serde (cliOf ptySessionId)
          (s.files path).content 0 with
      | error e =>
        rw [hread] at hfull
        rw [← hfull]
        exact ⟨rfl, hs⟩
      | ok value =>
        obtain ⟨newObservation, byteOffset⟩ := value
        rw [hread] at hfull
        have hfull : Except.ok newObservation = fullObservation serde (cliOf ptySessionId)
          (s.files path).content := hfull
        -- nothing is taken from the last observation
        have hobservation : newObservation.or
            ((s.contextFileCache ptySessionId).bind (·.observation)) = newObservation := by
          rcases hok.counted with hcounted | hcleared
          · exact or_of_isSome (hcounted.isSome hfull.symm)
          · have hlast : (s.contextFileCache ptySessionId).bind (·.observation) = none :=
              bind_eq_none_iff.mpr hcleared
            rw [hlast, or_none]
        dsimp only
        rw [hobservation, ← hfull]
        exact ⟨rfl, hs.insert rfl hfull.symm⟩

theorem ReadOk.path_eq {found : Option String}
    (h : ReadOk serde cliOf s ptySessionId resumeId found) :
    ((s.cachedContextPath ptySessionId resumeId).filter fun path => (s.files path).isFile).or
      found = found := by
  cases hcached : (s.cachedContextPath ptySessionId resumeId).filter fun path =>
      (s.files path).isFile with
  | none => exact none_or
  | some path =>
    obtain ⟨hpath, hisFile⟩ := filter_eq_some_iff.mp hcached
    exact (h.settled path hpath hisFile).symm

theorem contextUsageForPty_right (hs : Fresh serde cliOf s) {found : Option String}
    (h : ReadOk serde cliOf s ptySessionId resumeId found) :
    (s.contextUsageForPty serde cliOf ptySessionId resumeId found).2 =
        s.fullSnapshot serde cliOf ptySessionId found ∧
      Fresh serde cliOf (s.contextUsageForPty serde cliOf ptySessionId resumeId found).1 := by
  unfold contextUsageForPty
  rw [h.path_eq]
  cases found with
  | none => exact ⟨rfl, hs⟩
  | some path => exact readContextSnapshot_right hs (h.fileOk path rfl)

theorem Fresh.setFile (hs : Fresh serde cliOf s) {path : String} {file : TranscriptFile}
    {bytes : Bytes} (hfile : file.content = (s.files path).content ++ bytes) :
    Fresh serde cliOf { s with files := Function.update s.files path file } := by
  intro pty entry hentry
  obtain ⟨hle, hfull⟩ := hs pty entry hentry
  show entry.fileLen ≤ (update s.files path file entry.path).content.length ∧
    ((update s.files path file entry.path).content.length = entry.fileLen →
      fullObservation serde (cliOf pty) (update s.files path file entry.path).content =
        .ok entry.observation)
  by_cases hpath : entry.path = path
  · subst hpath
    rw [update_self, hfile, List.length_append]
    refine ⟨by omega, fun hlen => ?_⟩
    have hnil : bytes = [] := List.eq_nil_of_length_eq_zero (by omega)
    rw [hnil, List.append_nil]
    exact hfull (by omega)
  · rw [update_of_ne hpath]
    exact ⟨hle, hfull⟩

theorem Fresh.step (s : ContextReads) (action : ContextAction) (hs : Fresh serde cliOf s)
    (h : Meets serde cliOf s action) : Fresh serde cliOf (s.step serde cliOf action) := by
  cases action with
  | append => exact hs.setFile rfl
  | place => exact hs.setFile (List.append_nil _).symm
  | read => exact (contextUsageForPty_right hs h).2

theorem Fresh.readsRight (s : ContextReads) (action : ContextAction) (hs : Fresh serde cliOf s)
    (h : Meets serde cliOf s action) : ReadsRight serde cliOf s action := by
  cases action with
  | append => trivial
  | place => trivial
  | read => exact (contextUsageForPty_right hs h).1

end

/-- **Every read gives what a single reading gives**, in a run whose reads find the file that was
read before, leave out no line with a usage, and need no observation of an earlier read. -/
theorem context_reads_follow (serde : SerdeJson) (cliOf : String → ContextCli)
    (actions : List ContextAction)
    (h : StepsOk (step serde cliOf) (Meets serde cliOf) start actions) :
    StepsOk (step serde cliOf) (ReadsRight serde cliOf) start actions := by
  have hstart : Fresh serde cliOf start := by
    intro ptySessionId entry hentry
    cases hentry
  exact h.of_inv Fresh.step Fresh.readsRight hstart

/-! ## a new session in a terminal -/

/-- what `serde_json` makes of a response with five tokens -/
def sampleSerde : SerdeJson where
  fromStr line :=
    if line = "\x7b\"message\":\x7b\"usage\":\x7b\"input_tokens\":5\x7d\x7d\x7d\n" then
      some (.object [("message", .object [("usage", .object [("input_tokens", .number "5")])])])
    else none
  fromSlice _ := none

def sampleStart : Bytes := "\x7b\"message\":\x7b\"usage\":".toUTF8.toList

def sampleEnd : Bytes := "\x7b\"input_tokens\":5\x7d\x7d\x7d\n".toUTF8.toList

def sampleResponse : List ContextAction :=
  [.place "a.jsonl" true, .append "a.jsonl" sampleStart 1, .read "pty" "a" (some "a.jsonl"),
    .append "a.jsonl" sampleEnd 2, .read "pty" "a" (some "a.jsonl")]

abbrev sampleStep : ContextReads → ContextAction → ContextReads :=
  step sampleSerde fun _ => .claude

theorem sampleResponse_meets :
    StepsOk sampleStep (Meets sampleSerde fun _ => .claude) start sampleResponse := by
  refine ⟨trivial, trivial, ⟨nofun, ?_⟩, trivial, ⟨?_, ?_⟩, trivial⟩
  · intro path hfound _ _
    cases hfound
    exact ⟨TranscriptReader.Within.of_length_le _ (by decide +kernel), .inr nofun⟩
  · intro path hcached _
    have hpath : cachedContextPath (run sampleStep start (sampleResponse.take 4)) "pty" "a" =
      some "a.jsonl" := by decide +kernel
    exact hpath.symm.trans hcached
  intro path hfound _ _
  cases hfound
  have hsome : ((ContextCli.claude.reader sampleSerde).lastUsage
      ((run sampleStep start (sampleResponse.take 4)).files "a.jsonl").content).isSome = true := by
    decide +kernel
  obtain ⟨u, hu⟩ := isSome_iff_exists.mp hsome
  exact ⟨TranscriptReader.Within.of_length_le _ (by decide +kernel),
    .inl ⟨u, hu, fun _ => rfl⟩⟩

theorem context_reads_follow_response :
    StepsOk sampleStep (ReadsRight sampleSerde fun _ => .claude) start sampleResponse :=
  context_reads_follow sampleSerde (fun _ => .claude) sampleResponse sampleResponse_meets

def sampleResumed : ContextReads :=
  sampleStep (run sampleStep start sampleResponse) (.place "b.jsonl" true)

theorem earlier_session_shown :
    ¬ ∀ actions, StepsOk sampleStep (ReadsRight sampleSerde fun _ => .claude) start actions := by
  intro h
  have hsteps := h (sampleResponse ++ [.place "b.jsonl" true, .read "pty" "b" (some "b.jsonl")])
  have hread : (sampleResumed.contextUsageForPty sampleSerde (fun _ => .claude) "pty" "b"
        (some "b.jsonl")).2 =
      sampleResumed.fullSnapshot sampleSerde (fun _ => .claude) "pty" (some "b.jsonl") :=
    hsteps.of_append.2.2.1
  revert hread
  decide +kernel

end ContextReads

end CcPanes.ContextUsage

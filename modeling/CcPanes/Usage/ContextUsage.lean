import CcPanes.Foundation.CompleteLines
import CcPanes.Foundation.Json
import CcPanes.Foundation.Utf8
import CcPanes.TaskQueue.Models

/-!
# The latest context usage of a transcript

`read_latest_context_usage` of `claude_session_service.rs`, `codex_session_service.rs` and
`pi_session_service.rs`.  Each reads a JSONL file line by line and keeps what the last line with a
usage says.

`fromStr` and `fromSlice` stand for the two readers of `serde_json`.
-/

namespace CcPanes.ContextUsage
open CompleteLines List

abbrev Bytes := List UInt8

def newline : UInt8 := 10

/-- the two readers of `serde_json` -/
structure SerdeJson where
  fromStr : String → Option Json
  fromSlice : Bytes → Option Json

/-- without its date -/
structure UsageEntry where
  tokenInput : Nat
  tokenOutput : Nat
  tokenCacheRead : Nat
  tokenCacheCreation : Nat

structure ContextObservation where
  usedTokens : Nat
  windowTokens : Option Nat
  windowDiagnostic : Option String
  model : Option String
deriving DecidableEq

def saturatingAdd (a b : Nat) : Nat := min (a + b) (2 ^ 64 - 1)

def charOf : List UInt8 → Char
  | [a] => Char.ofNat a.toNat
  | [a, b] => Char.ofNat ((a.toNat - 0xc0) * 64 + (b.toNat - 0x80))
  | [a, b, c] =>
    Char.ofNat ((a.toNat - 0xe0) * 4096 + (b.toNat - 0x80) * 64 + (c.toNat - 0x80))
  | [a, b, c, d] =>
    Char.ofNat ((a.toNat - 0xf0) * 262144 + (b.toNat - 0x80) * 4096 + (c.toNat - 0x80) * 64 +
      (d.toNat - 0x80))
  | _ => '\ufffd'

/-- the first `skip` bytes belong to the character before -/
def lossyChars : (skip : Nat) → Bytes → List Char
  | _, [] => []
  | skip + 1, _ :: bytes => lossyChars skip bytes
  | 0, a :: bytes =>
    match Utf8.firstChar (a :: bytes) with
    | .char width => charOf ((a :: bytes).take width) :: lossyChars (width - 1) bytes
    | .unfinished => ['\ufffd']
    | .invalid errorLen => '\ufffd' :: lossyChars (errorLen - 1) bytes

def fromUtf8Lossy (bytes : Bytes) : String := String.ofList (lossyChars 0 bytes)

def SerdeJson.ofText (serde : SerdeJson) (buffer : Bytes) : Option Json :=
  let line := fromUtf8Lossy buffer
  if trim line = "" then none else serde.fromStr line

/-! ## the loop -/

structure TranscriptReader (L : Type) where
  maxFileBytes : Nat
  maxLines : Nat
  maxLineBytes : Nat
  tooLarge : String
  parseLine : Bytes → Option Json
  /-- a model that a line names, for the lines from there on -/
  modelNamed : Json → Option String
  /-- the usage of a line, given the model named so far -/
  usage : Json → Option (Option String → L)

namespace TranscriptReader

variable {L : Type} (r : TranscriptReader L)

/-- one complete line: the model named so far, and the latest usage -/
def look (state : Option String × Option L) (buffer : Bytes) : Option String × Option L :=
  if r.maxLineBytes < buffer.length then state
  else
    match r.parseLine buffer with
    | none => state
    | some json =>
      let model := (r.modelNamed json).or state.1
      match r.usage json with
      | none => (model, state.2)
      | some latest => (model, some (latest model))

def readLatest (content : Bytes) (fromByteOffset : Nat) : Except String (Option L × Nat) :=
  if r.maxFileBytes < content.length then .error r.tooLarge
  else
    let start := min fromByteOffset content.length
    let ((_, latest), offset) :=
      readLines newline r.look r.maxLines (content.drop start) (none, none) start
    .ok (latest, offset)

def fullReading (content : Bytes) : Except String (Option L) :=
  if r.maxFileBytes < content.length then .error r.tooLarge
  else .ok ((completeLines newline content).foldl r.look (none, none)).2

/-! ### lines with a usage -/

def usageLine (line : Bytes) : Option (Option String → L) :=
  if r.maxLineBytes < line.length then none else (r.parseLine line).bind r.usage

def lastUsage (content : Bytes) : Option (Option String → L) :=
  ((completeLines newline content).filterMap r.usageLine).getLast?

def Within (content : Bytes) : Prop :=
  ∀ line ∈ (completeLines newline content).drop r.maxLines, r.usageLine line = none

theorem Within.of_length_le {content : Bytes}
    (h : (completeLines newline content).length ≤ r.maxLines) : r.Within content := by
  intro line hline
  rw [drop_eq_nil_of_le h] at hline
  cases hline

theorem look_of_none {line : Bytes} (h : r.usageLine line = none)
    (state : Option String × Option L) : (r.look state line).2 = state.2 := by
  unfold usageLine at h
  unfold look
  by_cases hlen : r.maxLineBytes < line.length
  · rw [if_pos hlen]
  rw [if_neg hlen] at h ⊢
  cases hparse : r.parseLine line with
  | none => rfl
  | some json =>
    rw [hparse] at h
    have h : r.usage json = none := h
    dsimp only
    rw [h]

theorem look_of_some {line : Bytes} {u : Option String → L} (h : r.usageLine line = some u)
    (state : Option String × Option L) : ∃ model, (r.look state line).2 = some (u model) := by
  unfold usageLine at h
  unfold look
  by_cases hlen : r.maxLineBytes < line.length
  · rw [if_pos hlen] at h
    cases h
  rw [if_neg hlen] at h ⊢
  obtain ⟨json, hparse, h⟩ := Option.bind_eq_some_iff.mp h
  rw [hparse]
  dsimp only
  rw [h]
  exact ⟨_, rfl⟩

/-- **The last line with a usage decides**, with some model. -/
theorem latest_eq (lines : List Bytes) :
    ∃ model, (lines.foldl r.look (none, none)).2 =
      ((lines.filterMap r.usageLine).getLast?).map fun u => u model := by
  induction lines using reverseRecOn with
  | nil => exact ⟨none, rfl⟩
  | append_singleton lines line ih =>
    rw [foldl_append, filterMap_append]
    show ∃ model, (r.look (lines.foldl r.look (none, none)) line).2 = _
    cases h : r.usageLine line with
    | none =>
      rw [r.look_of_none h, filterMap_cons_none h, filterMap_nil, append_nil]
      exact ih
    | some u =>
      obtain ⟨model, hlook⟩ := r.look_of_some h (lines.foldl r.look (none, none))
      rw [hlook, filterMap_cons_some h, filterMap_nil, getLast?_concat]
      exact ⟨model, rfl⟩

/-- **A reading from the start** finds what a reading without a limit finds, if no line with a usage
is left out. -/
theorem readLatest_eq {content : Bytes} (h : r.Within content) :
    (r.readLatest content 0).map (·.1) = r.fullReading content := by
  unfold readLatest fullReading
  by_cases hlen : r.maxFileBytes < content.length
  · rw [if_pos hlen, if_pos hlen]
    rfl
  rw [if_neg hlen, if_neg hlen]
  dsimp only
  rw [Nat.zero_min, drop_zero, readLines_eq]
  have htake := foldl_take_eq (f := r.look) (g := Prod.snd) r.maxLines
    (completeLines newline content) (fun line hline state => r.look_of_none (h line hline) state)
    (none, none)
  exact congrArg Except.ok htake

end TranscriptReader

/-! ## Claude -/

def numberField (value : Json) (names : List String) : Nat :=
  (names.findSome? fun name => (value.get name).bind Json.asU64).getD 0

namespace Claude

structure LatestContextUsage where
  usage : UsageEntry
  model : Option String
  windowTokens : Option Nat
  windowDiagnostic : Option String

def strictNumberField (value : Json) (name : String) : Option Nat := do
  (← value.get name).asU64

def strictOptionalNumberField (value : Json) (name : String) : Option Nat :=
  match value.get name with
  | none => some 0
  | some field => field.asU64

def extractClaudeContextUsage (json : Json) : Option UsageEntry := do
  let usage ← (← json.get "message").get "usage"
  let input ← strictNumberField usage "input_tokens"
  let output ← strictOptionalNumberField usage "output_tokens"
  let cacheRead ← strictOptionalNumberField usage "cache_read_input_tokens"
  let cacheCreation ← strictOptionalNumberField usage "cache_creation_input_tokens"
  return ⟨input, output, cacheRead, cacheCreation⟩

/-- a candidate for the window: what was found so far, and whether a candidate was invalid -/
def windowCandidate : Option Nat × Bool → Json → Option Nat × Bool
  | (windowTokens, invalidCandidate), candidate =>
    match candidate.asU64 with
    | some window =>
      if 1000 ≤ window then (windowTokens.or (some window), invalidCandidate)
      else (windowTokens, true)
    | none => (windowTokens, true)

def extractClaudeContextWindow (json : Json) : Option Nat × Option String :=
  let message := json.get "message"
  let usage := message.bind fun value => value.get "usage"
  let metadata := json.get "metadata"
  let candidates := ([some json, message, usage, metadata].filterMap id).flatMap fun value =>
    ["context_window", "context_window_tokens", "max_context_tokens"].filterMap fun name =>
      value.get name
  let (windowTokens, invalidCandidate) := candidates.foldl windowCandidate (none, false)
  (windowTokens, if invalidCandidate then some "WINDOW_INVALID" else none)

def reader (serde : SerdeJson) : TranscriptReader LatestContextUsage where
  maxFileBytes := 32 * 1024 * 1024
  maxLines := 100000
  maxLineBytes := 1024 * 1024
  tooLarge := "context usage file exceeds read limit"
  parseLine := serde.ofText
  modelNamed _ := none
  usage json := (extractClaudeContextUsage json).map fun usage _ =>
    { usage
      model := ((json.get "message").bind fun message => message.get "model").bind Json.asStr
      windowTokens := (extractClaudeContextWindow json).1
      windowDiagnostic := (extractClaudeContextWindow json).2 }

def observation (value : LatestContextUsage) : ContextObservation where
  usedTokens := saturatingAdd (saturatingAdd value.usage.tokenInput value.usage.tokenCacheRead)
    value.usage.tokenCacheCreation
  windowTokens := value.windowTokens
  windowDiagnostic := value.windowDiagnostic
  model := value.model

end Claude

/-! ## Codex -/

namespace Codex

structure LatestContextUsage where
  usage : UsageEntry
  model : Option String
  windowTokens : Option Nat
  totalTokens : Option Nat
  windowDiagnostic : Option String

structure ParsedContextUsage where
  usage : UsageEntry
  windowTokens : Option Nat
  totalTokens : Option Nat
  windowDiagnostic : Option String

/-- `some none` for a field that is not there, `none` for one that is no number -/
def strictContextNumberField (value : Json) : List String → Option (Option Nat)
  | [] => some none
  | name :: names =>
    match value.get name with
    | some field => field.asU64.map some
    | none => strictContextNumberField value names

def cacheReadTokens (usage : Json) : Nat :=
  let details (name : String) := ((usage.pointer [name, "cached_tokens"]).bind Json.asU64).getD 0
  max (max (numberField usage ["cache_read_input_tokens", "cached_input_tokens"])
    (details "input_tokens_details")) (details "prompt_tokens_details")

def contextWindowCandidate : Option Json → Option Nat × Option String
  | none => (none, none)
  | some value =>
    match value.asU64.filter fun window => 1000 ≤ window with
    | some window => (some window, none)
    | none => (none, some "WINDOW_INVALID")

def sumOf (input output : Option Nat) : Option Nat := do
  return saturatingAdd (← input) (← output)

def parsedContextUsage (usage : Json) (input output total : Option Nat) (candidate : Option Json) :
    ParsedContextUsage where
  usage :=
    { tokenInput := input.getD 0
      tokenOutput := output.getD 0
      tokenCacheRead := cacheReadTokens usage
      tokenCacheCreation := numberField usage ["cache_creation_input_tokens"] }
  windowTokens := (contextWindowCandidate candidate).1
  totalTokens := total
  windowDiagnostic := (contextWindowCandidate candidate).2

def extractCodexContextUsage (json : Json) : Option ParsedContextUsage :=
  let isTokenCount := (json.get "type").bind Json.asStr = some "event_msg" &&
    (json.pointer ["payload", "type"]).bind Json.asStr = some "token_count"
  if isTokenCount then do
    let usage ← json.pointer ["payload", "info", "last_token_usage"]
    let input ← strictContextNumberField usage ["input_tokens", "prompt_tokens"]
    let output ← strictContextNumberField usage ["output_tokens", "completion_tokens"]
    let total := (← strictContextNumberField usage ["total_tokens"]).or (sumOf input output)
    return parsedContextUsage usage input output total
      (json.pointer ["payload", "info", "model_context_window"])
  else if (json.get "type").bind Json.asStr ≠ some "response_item" then none
  else do
    let payload ← json.get "payload"
    let usage ← ((payload.get "usage").or (payload.pointer ["response", "usage"])).or
      (payload.pointer ["payload", "usage"])
    let input ← strictContextNumberField usage ["input_tokens", "prompt_tokens"]
    let output ← strictContextNumberField usage ["output_tokens", "completion_tokens"]
    return parsedContextUsage usage input output (sumOf input output)
      (payload.get "model_context_window")

def codexModel (json : Json) : Option String :=
  [["payload", "info", "model"], ["payload", "model"], ["payload", "turn_context", "model"],
    ["payload", "session_meta", "model"]].findSome? fun names =>
      (json.pointer names).bind Json.asStr

def reader (serde : SerdeJson) : TranscriptReader LatestContextUsage where
  maxFileBytes := 4 * 1024 * 1024
  maxLines := 20000
  maxLineBytes := 1024 * 1024
  tooLarge := "context usage file exceeds read limit"
  parseLine := serde.ofText
  modelNamed := codexModel
  usage json := (extractCodexContextUsage json).map fun observation model =>
    { usage := observation.usage
      model
      windowTokens := observation.windowTokens
      totalTokens := observation.totalTokens
      windowDiagnostic := observation.windowDiagnostic }

def observation (value : LatestContextUsage) : Option ContextObservation :=
  value.totalTokens.map fun usedTokens =>
    { usedTokens
      windowTokens := value.windowTokens
      windowDiagnostic := value.windowDiagnostic
      model := value.model }

end Codex

namespace Pi

structure PiLatestContextUsage where
  usage : UsageEntry
  model : Option String

def requiredNumber (value : Json) (names : List String) : Option Nat :=
  (names.findSome? fun name => value.get name).bind Json.asU64

def contextUsageFromEntry (json : Json) : Option PiLatestContextUsage :=
  if (json.get "type").bind Json.asStr ≠ some "message" ||
      (json.pointer ["message", "role"]).bind Json.asStr ≠ some "assistant" then
    none
  else do
    let usage ← json.pointer ["message", "usage"]
    let input ← requiredNumber usage ["input", "inputTokens", "input_tokens"]
    return {
      usage :=
        { tokenInput := input
          tokenOutput := numberField usage ["output", "outputTokens", "output_tokens"]
          tokenCacheRead := numberField usage ["cacheRead", "cache_read"]
          tokenCacheCreation := numberField usage ["cacheWrite", "cache_write"] }
      model := ((json.pointer ["message", "responseModel"]).bind Json.asStr).or
        ((json.pointer ["message", "model"]).bind Json.asStr) }

def reader (serde : SerdeJson) : TranscriptReader PiLatestContextUsage where
  maxFileBytes := 50 * 1024 * 1024
  maxLines := 100000
  maxLineBytes := 1024 * 1024
  tooLarge := "Pi context usage file exceeds read limit"
  parseLine := serde.fromSlice
  modelNamed _ := none
  usage json := (contextUsageFromEntry json).map fun value _ => value

def observation (value : PiLatestContextUsage) : ContextObservation where
  usedTokens := saturatingAdd (saturatingAdd value.usage.tokenInput value.usage.tokenCacheRead)
    value.usage.tokenCacheCreation
  windowTokens := none
  windowDiagnostic := none
  model := value.model

end Pi

inductive ContextCli where
  | claude
  | codex
  /-- `pi` and `omp` -/
  | pi
deriving DecidableEq

namespace ContextCli

def Latest : ContextCli → Type
  | claude => Claude.LatestContextUsage
  | codex => Codex.LatestContextUsage
  | pi => Pi.PiLatestContextUsage

def reader (serde : SerdeJson) : (cli : ContextCli) → TranscriptReader cli.Latest
  | claude => Claude.reader serde
  | codex => Codex.reader serde
  | pi => Pi.reader serde

/-- what is kept of a usage; Codex may have one without a total -/
def observation : (cli : ContextCli) → cli.Latest → Option ContextObservation
  | claude, value => some (Claude.observation value)
  | codex, value => Codex.observation value
  | pi, value => some (Pi.observation value)

end ContextCli

end CcPanes.ContextUsage

import CcPanes.Foundation.Json
import CcPanes.Foundation.TailSegments
import CcPanes.TaskQueue.Models

/-!
# The last summary of a transcript

`extract_last_summary` of `session_index_parser.rs` reads a transcript from its end, block by block,
until a line has a summary.  The first segment of what is known may begin before the block: it is
carried to the next one.

`fromSlice` stands for `serde_json::from_slice`.
-/

namespace CcPanes.SessionIndex
open TailSegments Option

abbrev Bytes := List UInt8

/-! ## one line -/

def contentText (content : Json) (textKey : String) : Option String :=
  match (content.asStr.map trim).filter fun text => text ≠ "" with
  | some text => some text
  | none => do
    let items ← content.asArray
    let texts := ((items.filter fun item =>
      match (item.get "type").bind Json.asStr with
      | some type => ["text", "input_text", "output_text"].contains type
      | none => false).filterMap fun item => ((item.get textKey).bind Json.asStr).map trim).filter
        fun text => text ≠ "" && !text.contains "tool_use_id"
    if texts.isEmpty then none else some (String.intercalate "\n" texts)

def claudeMessageText (json : Json) : Option String := do
  contentText (← (← json.get "message").get "content") "text"

def codexMessageText (payload : Json) : Option String := do
  contentText (← payload.get "content") "text"

def isMessageRole (json : Json) (key : String) : Bool :=
  match (json.get key).bind Json.asStr with
  | some role => ["user", "assistant"].contains role
  | none => false

def summaryFromLine (fromSlice : Bytes → Option Json) (cliTool : String) (raw : Bytes) :
    Option String := do
  let json ← fromSlice raw
  match cliTool with
  | "claude" => if isMessageRole json "type" then claudeMessageText json else none
  | "codex" =>
    let payload ← json.get "payload"
    if (json.get "type").bind Json.asStr = some "response_item" &&
        (payload.get "type").bind Json.asStr = some "message" && isMessageRole payload "role" then
      codexMessageText payload
    else none
  | _ => none

def truncateText (text : String) : String :=
  let chars := (trim text).toList
  let value := String.ofList (chars.take 80)
  if (chars.drop 80).isEmpty then value else value ++ "..."

def newline : UInt8 := 10

def tailBlockSize : Nat := 8192

/-- `position` bytes of the file have not been read; the result has the number of those that have -/
def scanTail (summary : Bytes → Option String) (blockSize : Nat) (hblock : 0 < blockSize)
    (content : Bytes) (position : Nat) (carried : Bytes) (bytesRead : Nat) : String × Nat :=
  if position = 0 then (((summary carried).map truncateText).getD "", bytesRead)
  else
    let chunkSize := min position blockSize
    let chunk := (content.drop (position - chunkSize)).take chunkSize ++ carried
    let lines := chunk.splitOn newline
    let bytesRead := bytesRead + chunkSize
    match lines.tail.reverse.findSome? summary with
    | some text => (truncateText text, bytesRead)
    | none =>
      scanTail summary blockSize hblock content (position - chunkSize) (lines.headD []) bytesRead
termination_by position
decreasing_by
  have := Nat.lt_min.mpr ⟨Nat.pos_of_ne_zero ‹_›, hblock⟩
  omega

def extractLastSummary (fromSlice : Bytes → Option Json) (cliTool : String) (blockSize : Nat)
    (hblock : 0 < blockSize) (content : Bytes) : String × Nat :=
  scanTail (summaryFromLine fromSlice cliTool) blockSize hblock content content.length [] 0

/-! ## the scan -/

section
variable (summary : Bytes → Option String) (blockSize : Nat) (hblock : 0 < blockSize)
  (content : Bytes)

def summaryOf (found : Option String) : String := (found.map truncateText).getD ""

/-- **What is left to look at** when the bytes from `position` on have no summary but perhaps in
their first segment. -/
theorem scanTail_spec (position : Nat) : ∀ bytesRead, position ≤ content.length →
    lastSome summary ((content.drop position).splitOn newline).tail = none →
    (scanTail summary blockSize hblock content position (carry newline (content.drop position))
        bytesRead).1 = summaryOf (lastSome summary (content.splitOn newline)) := by
  induction position using Nat.strongRecOn with
  | ind position ih =>
    intro bytesRead hlen hnone
    unfold scanTail
    split
    next hzero =>
      subst hzero
      rw [List.drop_zero] at hnone ⊢
      show summaryOf (summary (carry newline content)) = _
      rw [splitOn_eq newline content, ← List.singleton_append, lastSome_append, hnone,
        none_or, lastSome_singleton]
    next hpos =>
      have hchunk : 0 < min position blockSize :=
        Nat.lt_min.mpr ⟨Nat.pos_of_ne_zero hpos, hblock⟩
      have hle : min position blockSize ≤ position := Nat.min_le_left _ _
      generalize min position blockSize = chunkSize at hchunk hle
      dsimp only
      -- the bytes from the beginning of the block on
      have hdrop : content.drop (position - chunkSize) =
          (content.drop (position - chunkSize)).take chunkSize ++ content.drop position := by
        have hrest := List.take_append_drop chunkSize (content.drop (position - chunkSize))
        rw [List.drop_drop, Nat.sub_add_cancel hle] at hrest
        exact hrest.symm
      generalize (content.drop (position - chunkSize)).take chunkSize = block at hdrop
      have hcarry : ((block ++ carry newline (content.drop position)).splitOn newline).headD [] =
          carry newline (content.drop (position - chunkSize)) := by
        rw [hdrop, carry_append]
        rfl
      have htail : ((content.drop (position - chunkSize)).splitOn newline).tail =
          ((block ++ carry newline (content.drop position)).splitOn newline).tail ++
            ((content.drop position).splitOn newline).tail := by
        rw [hdrop, splitOn_append, splitOn_eq newline (block ++ _)]
        rfl
      split
      next text hfound =>
        -- a whole segment of the block has a summary, and none after it
        have hlast : lastSome summary
            ((content.drop (position - chunkSize)).splitOn newline).tail = some text := by
          rw [htail, lastSome_append, hnone, none_or]
          exact hfound
        have hcontent := splitOn_append newline (content.take (position - chunkSize))
          (content.drop (position - chunkSize))
        rw [List.take_append_drop] at hcontent
        rw [hcontent, lastSome_append, hlast, some_or]
        rfl
      next hmiss =>
        rw [hcarry]
        refine ih _ (by omega) _ (by omega) ?_
        rw [htail, lastSome_append, hnone, none_or]
        exact hmiss

end

/-- **Reading from the end finds the summary of the last line that has one**, wherever the blocks
begin. -/
theorem extract_last_summary (fromSlice : Bytes → Option Json) (cliTool : String) (blockSize : Nat)
    (hblock : 0 < blockSize) (content : Bytes) :
    (extractLastSummary fromSlice cliTool blockSize hblock content).1 =
      ((lastSome (summaryFromLine fromSlice cliTool) (content.splitOn newline)).map
        truncateText).getD "" := by
  have h := scanTail_spec (summaryFromLine fromSlice cliTool) blockSize hblock content
    content.length 0 (Nat.le_refl _)
  rw [List.drop_length] at h
  exact h rfl

def sampleLines : List String :=
  ["\x7b\"type\":\"user\",\"message\":\x7b\"content\":\" fix the build \"\x7d\x7d",
    "\x7b\"type\":\"assistant\",\"message\":\x7b\"content\":\"\"\x7d\x7d"]

def sampleMessage (type content : String) : Json :=
  .object [("message", .object [("content", .string content)]), ("type", .string type)]

/-- what `serde_json` makes of the two lines -/
def sampleFromSlice (raw : Bytes) : Option Json :=
  if raw = (sampleLines.getD 0 "").toUTF8.toList then some (sampleMessage "user" " fix the build ")
  else if raw = (sampleLines.getD 1 "").toUTF8.toList then some (sampleMessage "assistant" "")
  else none

def sampleTranscript : Bytes := (String.intercalate "\n" sampleLines).toUTF8.toList

theorem extract_last_summary_sample :
    (extractLastSummary sampleFromSlice "claude" 16 (by decide) sampleTranscript).1 =
      ((lastSome (summaryFromLine sampleFromSlice "claude")
        (sampleTranscript.splitOn newline)).map truncateText).getD "" :=
  extract_last_summary sampleFromSlice "claude" 16 (by decide) sampleTranscript

end CcPanes.SessionIndex

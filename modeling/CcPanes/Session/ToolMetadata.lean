import CcPanes.Session.AutomaticSubmit

/-!
# Tool metadata

An entry names its current tool, with a summary and a use id, while its status is `ToolRunning`, and
holds none of the three otherwise (`Coherent`).  `ToolAfter` and a forced exit clear all three; the
other events that leave `ToolRunning` clear two of them, or none.
-/

namespace CcPanes

open SessionStateMachine SessionStateEntry

variable {m : SessionStateMachine} {e : SessionStateEntry}

structure Coherent (e : SessionStateEntry) : Prop where
  cleared : e.status ≠ .toolRunning →
    e.currentToolName = none ∧ e.currentToolSummary = none ∧ e.currentToolUseId = none
  named : e.status = .toolRunning → e.currentToolName.isSome = true

def CoherentEntries (m : SessionStateMachine) : Prop :=
  ∀ sid e, m.entries sid = some e → Coherent e

/-- The event does not leave `ToolRunning` with something uncleared. -/
def ClearedBy (e : SessionStateEntry) : CcPaneEvent → Prop
  | .sessionInit | .sessionResume | .promptBefore => e.status ≠ .toolRunning
  | .turnEnd | .beforeCompact | .waitingInput | .error | .sessionEnd => e.currentToolUseId = none
  | .toolBefore | .toolAfter => True

/-- an event that reaches the state table clears what its session's entry has -/
def ClearsTool (m : SessionStateMachine) : SessionOp → Prop
  | .event sid event _ _ channel clock =>
    isApplied m sid event channel clock = true → ClearedBy (m.entryOrNew sid clock) event
  | _ => True

/-! ## one entry -/

theorem coherent_new (clock : Clock) : Coherent (SessionStateEntry.new clock) :=
  ⟨fun _ => ⟨rfl, rfl, rfl⟩, fun h => SessionStatus.noConfusion h⟩

theorem coherent_baseline (clock : Clock) : Coherent (newAutomaticSubmitBaseline clock) :=
  ⟨fun _ => ⟨rfl, rfl, rfl⟩, fun h => SessionStatus.noConfusion h⟩

theorem Coherent.congr {e e' : SessionStateEntry} (h : Coherent e) (hstatus : e'.status = e.status)
    (hname : e'.currentToolName = e.currentToolName)
    (hsummary : e'.currentToolSummary = e.currentToolSummary)
    (huse : e'.currentToolUseId = e.currentToolUseId) : Coherent e' := by
  refine ⟨?_, ?_⟩
  · rw [hstatus, hname, hsummary, huse]
    exact h.cleared
  · rw [hstatus, hname]
    exact h.named

theorem coherent_left (h : Coherent e) {status : SessionStatus} (hleft : status ≠ .toolRunning) :
    Coherent { e with status := status } ↔ e.status ≠ .toolRunning := by
  constructor
  · intro h' hrunning
    have hname : e.currentToolName = none := (h'.cleared hleft).1
    have hsome := h.named hrunning
    rw [hname] at hsome
    cases hsome
  · intro hrunning
    exact ⟨fun _ => h.cleared hrunning, fun hs => absurd hs hleft⟩

theorem coherent_cleared {status : SessionStatus} (turnSeq : Nat) (hleft : status ≠ .toolRunning) :
    Coherent { e.clearTool with status := status, turnSeq := turnSeq } ↔
      e.currentToolUseId = none := by
  constructor
  · intro h'
    exact (h'.cleared hleft).2.2
  · intro huse
    exact ⟨fun _ => ⟨rfl, rfl, huse⟩, fun hs => absurd hs hleft⟩

theorem coherent_transfer (h : Coherent e) (payload : HookPayload) (event : CcPaneEvent) :
    Coherent (e.transfer payload event).1 ↔ ClearedBy e event := by
  cases event with
  | sessionInit | sessionResume | promptBefore => exact coherent_left h (by decide)
  | toolBefore =>
    exact ⟨fun _ => trivial, fun _ => ⟨fun hs => absurd rfl hs, fun _ => rfl⟩⟩
  | toolAfter =>
    refine ⟨fun _ => trivial, fun _ => ⟨fun _ => ⟨rfl, rfl, rfl⟩, fun hs => ?_⟩⟩
    change (if e.status = .toolRunning then SessionStatus.thinking else e.status) = .toolRunning at hs
    split at hs
    · cases hs
    · next hnot => exact absurd hs hnot
  | turnEnd => exact coherent_cleared _ (by decide)
  | beforeCompact | waitingInput | error | sessionEnd =>
    exact coherent_cleared e.turnSeq (by decide)

section
variable (h : CoherentEntries m) (sid : String)
include h sid

theorem coherent_entryOrNew (clock : Clock) :
    Coherent (m.entryOrNew sid clock) := by
  unfold entryOrNew
  cases he : m.entries sid with
  | none => exact coherent_new clock
  | some e => exact h sid e he

theorem coherent_entryOrBaseline (clock : Clock) :
    Coherent (m.entryOrBaseline sid clock) := by
  unfold entryOrBaseline
  cases he : m.entries sid with
  | none => exact coherent_baseline clock
  | some e => exact h sid e he

theorem coherent_setEntry (e : SessionStateEntry) :
    CoherentEntries (m.setEntry sid e) ↔ Coherent e := by
  constructor
  · intro h'
    exact h' sid e (setEntry_self m sid e)
  intro he sid' e' he'
  by_cases hsid : sid' = sid
  · subst hsid
    rw [setEntry_self] at he'
    cases he'
    exact he
  · rw [setEntry_other m e hsid] at he'
    exact h sid' e' he'

theorem coherent_event (event : CcPaneEvent) (taskBindingId : Option String) (payload : HookPayload)
    (channel : EventChannel) (clock : Clock) :
    CoherentEntries (m.onEventWithChannel sid event taskBindingId payload channel clock).1 ↔
      (isApplied m sid event channel clock = true → ClearedBy (m.entryOrNew sid clock) event) := by
  have hentry := coherent_entryOrNew h sid clock
  cases hdup : (m.entryOrNew sid clock).isCrossChannelDup (ccPaneEventName event) channel
      clock.instant with
  | true =>
    have hdropped : isApplied m sid event channel clock = false := by
      rw [isApplied, hdup]
      rfl
    rw [onEvent_dropped taskBindingId payload hdup, coherent_setEntry h, hdropped]
    exact ⟨fun _ h => (by cases h), fun _ => hentry⟩
  | false =>
    have happlied : isApplied m sid event channel clock = true := by
      rw [isApplied, hdup]
      rfl
    have hobserved : Coherent ((m.entryOrNew sid clock).observe (ccPaneEventName event)
        taskBindingId channel clock) := hentry.congr rfl rfl rfl rfl
    rw [onEvent_applied taskBindingId payload hdup, coherent_setEntry h, happlied, appliedEntry,
      coherent_transfer hobserved]
    exact ⟨fun hs _ => hs, fun hs => hs rfl⟩

end

theorem coherent_apply (h : CoherentEntries m) (op : SessionOp) :
    CoherentEntries (op.apply m) ↔ ClearsTool m op := by
  cases op with
  | event sid event taskBindingId payload channel clock =>
    exact coherent_event h sid event taskBindingId payload channel clock
  | register sid clock | mark sid clock =>
    refine ⟨fun _ => trivial, fun _ => (coherent_setEntry h sid _).mpr ?_⟩
    exact (coherent_entryOrBaseline h sid clock).congr rfl rfl rfl rfl
  | forceExited sid clock =>
    refine ⟨fun _ => trivial, fun _ => ?_⟩
    show CoherentEntries (m.forceExited sid clock).1
    unfold forceExited
    split
    · exact h
    split
    · exact h
    · refine (coherent_setEntry h sid _).mpr ?_
      exact ⟨fun _ => ⟨rfl, rfl, rfl⟩, fun hs => SessionStatus.noConfusion hs⟩

theorem coherent_empty : CoherentEntries SessionStateMachine.new := by
  intro sid e he
  cases he

/-- From the empty machine, every entry is coherent in every state of a run if and only if every
step of it clears what it leaves. -/
theorem toolMetadata_iff (ops : List SessionOp) :
    Run.Along SessionOp.apply CoherentEntries SessionStateMachine.new ops ↔
      Run.StepsOk SessionOp.apply ClearsTool SessionStateMachine.new ops :=
  Run.along_iff_stepsOk (I := fun _ => True) (Q := CoherentEntries) (P := ClearsTool)
    (s := SessionStateMachine.new) (fun _ _ _ => trivial) (fun _ op _ h => coherent_apply h op)
    trivial coherent_empty ops

def promptOverTool : List SessionOp :=
  [.event "pty" .toolBefore none ⟨some "Bash", some "use-1", none, none⟩ .http ⟨0, 0⟩,
    .event "pty" .promptBefore none ⟨none, none, none, none⟩ .http ⟨1, 0⟩]

/-- the session is thinking, and still has a current tool -/
theorem promptOverTool_stale :
    ¬CoherentEntries (Run.run SessionOp.apply SessionStateMachine.new promptOverTool) := by
  intro h
  have hentry := (h "pty" _ rfl).cleared (by decide)
  cases hentry.1

end CcPanes

import CcPanes.Foundation.Run

/-!
# The output flow gate, one call at a time

`OutputFlowGate` of `terminal_output_flow.rs`: how much emitted output the front end has not
acknowledged, and whether the PTY reader has to pause.  Here every call runs alone; the calls cut
into their atomic steps are in `OutputFlowThreads`.  Instants and durations are nanoseconds, the
instant of a call is its argument.  The keyboard-echo fields (`last_input_at`) are left out, they
do not touch the accounting.
-/

namespace CcPanes
open Bool

def producerFlowControlEnabled : Bool := true
def producerFlowHighWatermarkBytes : Nat := 256 * 1024
def producerFlowLowWatermarkBytes : Nat := 32 * 1024
def producerPauseFailsafe : Nat := 5 * 1000000000
def failsafeTimeoutsBeforeDesync : Nat := 2

structure OutputFlowGate where
  sentSeq : Nat
  ackedSeq : Nat
  everAcked : Bool
  lastAckAt : Option Nat
  parkEnabled : Bool
  parked : Bool
  pauseCount : Nat
  failsafe : Nat
  consecutiveFailsafeTimeouts : Nat

namespace OutputFlowGate

def withFailsafe (parkEnabled : Bool) (failsafe : Nat) : OutputFlowGate where
  sentSeq := 0
  ackedSeq := 0
  everAcked := false
  lastAckAt := none
  parkEnabled := parkEnabled
  parked := false
  pauseCount := 0
  failsafe := failsafe
  consecutiveFailsafeTimeouts := 0

def withPark (parkEnabled : Bool) : OutputFlowGate :=
  withFailsafe parkEnabled producerPauseFailsafe

def new : OutputFlowGate := withPark producerFlowControlEnabled

def disabled : OutputFlowGate := withPark false

/-- `sent.saturating_sub(acked)` -/
def inFlight (g : OutputFlowGate) : Nat := g.sentSeq - g.ackedSeq

/-- the section of `reevaluate_park` under the lock; the level was read before the lock -/
def parkSection (g : OutputFlowGate) (inFlight : Nat) : OutputFlowGate :=
  if g.parked then
    if inFlight < producerFlowLowWatermarkBytes then { g with parked := false } else g
  else if inFlight > producerFlowHighWatermarkBytes then
    { g with parked := true, pauseCount := g.pauseCount + 1 }
  else g

def reevaluatePark (g : OutputFlowGate) : OutputFlowGate :=
  if !g.parkEnabled then g
  else if !g.everAcked then g
  else g.parkSection g.inFlight

/-- `sent_seq.fetch_max` -/
def mergeSent (g : OutputFlowGate) (endSeq : Nat) : OutputFlowGate :=
  { g with sentSeq := max g.sentSeq endSeq }

/-- `acked_seq.fetch_max` -/
def mergeAcked (g : OutputFlowGate) (capped : Nat) : OutputFlowGate :=
  { g with ackedSeq := max g.ackedSeq capped }

/-- the two stores at the head of `note_acked` -/
def stampAck (g : OutputFlowGate) (now : Nat) : OutputFlowGate :=
  { g with everAcked := true, lastAckAt := some now }

def noteSent (g : OutputFlowGate) : Option Nat → OutputFlowGate
  | none => g
  | some endSeq => (g.mergeSent endSeq).reevaluatePark

def noteAcked (g : OutputFlowGate) (processedEndSeq now : Nat) : OutputFlowGate × Nat :=
  let capped := min processedEndSeq g.sentSeq
  (((g.stampAck now).mergeAcked capped).reevaluatePark, capped - g.ackedSeq)

def release (g : OutputFlowGate) : OutputFlowGate := { g with parked := false }

/-! ## what the locked section can do -/

section
variable (g : OutputFlowGate)
include g

theorem parkSection_sentSeq (v : Nat) :
    (g.parkSection v).sentSeq = g.sentSeq := by
  unfold parkSection
  split <;> split <;> rfl

theorem parkSection_ackedSeq (v : Nat) :
    (g.parkSection v).ackedSeq = g.ackedSeq := by
  unfold parkSection
  split <;> split <;> rfl

theorem parkSection_everAcked (v : Nat) :
    (g.parkSection v).everAcked = g.everAcked := by
  unfold parkSection
  split <;> split <;> rfl

theorem parkSection_parkEnabled (v : Nat) :
    (g.parkSection v).parkEnabled = g.parkEnabled := by
  unfold parkSection
  split <;> split <;> rfl

theorem parkSection_inFlight (v : Nat) :
    (g.parkSection v).inFlight = g.inFlight := by
  unfold inFlight
  rw [parkSection_sentSeq, parkSection_ackedSeq]

theorem parkSection_parked (v : Nat) :
    (g.parkSection v).parked = true ↔
      (g.parked = true ∧ producerFlowLowWatermarkBytes ≤ v) ∨
      (g.parked = false ∧ producerFlowHighWatermarkBytes < v) := by
  unfold parkSection
  cases hp : g.parked with
  | true =>
    by_cases hv : v < producerFlowLowWatermarkBytes
    · simp [hv]
    · simp [hv, hp, Nat.le_of_not_lt hv]
  | false =>
    by_cases hv : v > producerFlowHighWatermarkBytes
    · simp [hv]
    · simp [hv, hp]

theorem parkSection_pauseCount (v : Nat) :
    (g.parkSection v).pauseCount =
      g.pauseCount + (if !g.parked && (g.parkSection v).parked then 1 else 0) := by
  unfold parkSection
  cases hp : g.parked with
  | true =>
    by_cases hv : v < producerFlowLowWatermarkBytes
    · simp [hv]
    · simp [hv]
  | false =>
    by_cases hv : v > producerFlowHighWatermarkBytes
    · simp [hv]
    · simp [hv, hp]

/-! ## re-evaluation on the current level -/

theorem reevaluatePark_cases :
    ((g.parkEnabled = false ∨ g.everAcked = false) ∧ g.reevaluatePark = g) ∨
    (g.parkEnabled = true ∧ g.everAcked = true ∧ g.reevaluatePark = g.parkSection g.inFlight) := by
  unfold reevaluatePark
  cases he : g.parkEnabled with
  | false => exact .inl ⟨.inl rfl, rfl⟩
  | true =>
    cases ha : g.everAcked with
    | false => exact .inl ⟨.inr rfl, rfl⟩
    | true => exact .inr ⟨rfl, rfl, rfl⟩

theorem reevaluatePark_counters :
    g.reevaluatePark.sentSeq = g.sentSeq ∧ g.reevaluatePark.ackedSeq = g.ackedSeq ∧
    g.reevaluatePark.everAcked = g.everAcked ∧ g.reevaluatePark.parkEnabled = g.parkEnabled := by
  rcases reevaluatePark_cases g with ⟨_, heq⟩ | ⟨_, _, heq⟩
  · rw [heq]
    exact ⟨rfl, rfl, rfl, rfl⟩
  · rw [heq]
    exact ⟨parkSection_sentSeq g _, parkSection_ackedSeq g _, parkSection_everAcked g _,
      parkSection_parkEnabled g _⟩

theorem reevaluatePark_inFlight :
    g.reevaluatePark.inFlight = g.inFlight := by
  obtain ⟨hs, ha, _, _⟩ := reevaluatePark_counters g
  unfold inFlight
  rw [hs, ha]

theorem reevaluatePark_pauseCount :
    g.reevaluatePark.pauseCount =
      g.pauseCount + (if !g.parked && g.reevaluatePark.parked then 1 else 0) := by
  rcases reevaluatePark_cases g with ⟨_, heq⟩ | ⟨_, _, heq⟩
  · rw [heq]
    cases g.parked <;> rfl
  · rw [heq]
    exact parkSection_pauseCount g _

end

theorem reevaluatePark_parks {g : OutputFlowGate} (hp : g.parked = false)
    (hp' : g.reevaluatePark.parked = true) :
    producerFlowHighWatermarkBytes < g.inFlight := by
  rcases reevaluatePark_cases g with ⟨_, heq⟩ | ⟨_, _, heq⟩
  · rw [heq, hp] at hp'
    cases hp'
  rw [heq] at hp'
  rcases (parkSection_parked g g.inFlight).mp hp' with ⟨h, _⟩ | ⟨_, h⟩
  · rw [hp] at h
    cases h
  · exact h

end OutputFlowGate

/-- what holds of a gate between two calls -/
structure Settled (g : OutputFlowGate) : Prop where
  acked_le_sent : g.ackedSeq ≤ g.sentSeq
  parked_only : g.parked = true → g.parkEnabled = true ∧ g.everAcked = true
  high_parked : g.parkEnabled = true → g.everAcked = true →
    producerFlowHighWatermarkBytes < g.inFlight → g.parked = true
  low_free : g.inFlight < producerFlowLowWatermarkBytes → g.parked = false

open OutputFlowGate

theorem settled_withFailsafe (parkEnabled : Bool) (failsafe : Nat) :
    Settled (withFailsafe parkEnabled failsafe) where
  acked_le_sent := Nat.le_refl 0
  parked_only h := nomatch h
  high_parked _ h := nomatch h
  low_free _ := rfl

theorem settled_reevaluatePark {g : OutputFlowGate} (hle : g.ackedSeq ≤ g.sentSeq)
    (hpark : g.parked = true → g.parkEnabled = true ∧ g.everAcked = true) :
    Settled g.reevaluatePark := by
  obtain ⟨hs, ha, hev, hen⟩ := reevaluatePark_counters g
  have hfl := reevaluatePark_inFlight g
  have hlo_hi : producerFlowLowWatermarkBytes ≤ producerFlowHighWatermarkBytes := by decide
  rcases reevaluatePark_cases g with ⟨hoff, heq⟩ | ⟨hen', hev', heq⟩
  · have hfree : g.parked = false := by
      cases hp : g.parked with
      | false => rfl
      | true =>
        obtain ⟨h1, h2⟩ := hpark hp
        rcases hoff with h | h
        · rw [h1] at h
          exact h
        · rw [h2] at h
          exact h
    rw [heq]
    refine ⟨hle, hpark, ?_, fun _ => hfree⟩
    intro h1 h2 _
    rcases hoff with h | h
    · rw [h] at h1
      cases h1
    · rw [h] at h2
      cases h2
  refine ⟨?_, ?_, ?_, ?_⟩
  · rw [hs, ha]
    exact hle
  · intro _
    rw [hen, hev]
    exact ⟨hen', hev'⟩
  · intro _ _ hhigh
    rw [hfl] at hhigh
    rw [heq, parkSection_parked]
    cases hp : g.parked with
    | true => exact .inl ⟨rfl, Nat.le_of_lt (Nat.lt_of_le_of_lt hlo_hi hhigh)⟩
    | false => exact .inr ⟨rfl, hhigh⟩
  · intro hlow
    rw [hfl] at hlow
    rw [← not_eq_true, heq, parkSection_parked]
    rintro (⟨_, h⟩ | ⟨_, h⟩) <;> omega

/-! ## calls and runs -/

inductive GateCall where
  | noteSent (endSeq : Option Nat)
  | noteAcked (processedEndSeq now : Nat)

namespace GateCall

def apply (g : OutputFlowGate) : GateCall → OutputFlowGate
  | noteSent endSeq => g.noteSent endSeq
  | noteAcked processedEndSeq now => (g.noteAcked processedEndSeq now).1

def acknowledged (g : OutputFlowGate) : GateCall → Nat
  | noteSent _ => 0
  | noteAcked processedEndSeq now => (g.noteAcked processedEndSeq now).2

def isAck : GateCall → Bool
  | noteSent _ => false
  | noteAcked _ _ => true

end GateCall

def gateAfter (parkEnabled : Bool) (failsafe : Nat) (calls : List GateCall) : OutputFlowGate :=
  Run.run GateCall.apply (withFailsafe parkEnabled failsafe) calls

def totalAcknowledged (g : OutputFlowGate) : List GateCall → Nat
  | [] => 0
  | c :: calls => c.acknowledged g + totalAcknowledged (c.apply g) calls

theorem settled_apply {g : OutputFlowGate} (h : Settled g) (c : GateCall) :
    Settled (c.apply g) := by
  cases c with
  | noteSent endSeq =>
    cases endSeq with
    | none => exact h
    | some e =>
      refine settled_reevaluatePark (g := g.mergeSent e) ?_ h.parked_only
      exact Nat.le_trans h.acked_le_sent (Nat.le_max_left _ _)
  | noteAcked p now =>
    refine settled_reevaluatePark (g := (g.stampAck now).mergeAcked (min p g.sentSeq)) ?_ ?_
    · exact Nat.max_le.mpr ⟨h.acked_le_sent, Nat.min_le_right _ _⟩
    · intro hp
      exact ⟨(h.parked_only hp).1, rfl⟩

theorem settled_gateAfter (parkEnabled : Bool) (failsafe : Nat) (calls : List GateCall) :
    Settled (gateAfter parkEnabled failsafe calls) :=
  Run.run_inv (I := Settled) (fun _ c h => settled_apply h c)
    (settled_withFailsafe parkEnabled failsafe) calls

theorem apply_counters (g : OutputFlowGate) (c : GateCall) :
    g.sentSeq ≤ (c.apply g).sentSeq ∧ (c.apply g).parkEnabled = g.parkEnabled ∧
    (c.apply g).ackedSeq = g.ackedSeq + c.acknowledged g ∧
    (c.apply g).everAcked = (g.everAcked || c.isAck) := by
  cases c with
  | noteSent endSeq =>
    cases endSeq with
    | none => exact ⟨Nat.le_refl _, rfl, rfl, (Bool.or_false _).symm⟩
    | some e =>
      obtain ⟨hs, ha, hev, hen⟩ := reevaluatePark_counters (g.mergeSent e)
      refine ⟨?_, hen, ha, ?_⟩
      · show g.sentSeq ≤ (g.mergeSent e).reevaluatePark.sentSeq
        rw [hs]
        exact Nat.le_max_left _ _
      · exact hev.trans (Bool.or_false _).symm
  | noteAcked p now =>
    obtain ⟨hs, ha, hev, hen⟩ :=
      reevaluatePark_counters ((g.stampAck now).mergeAcked (min p g.sentSeq))
    refine ⟨Nat.le_of_eq hs.symm, hen, ?_, ?_⟩
    · refine ha.trans ?_
      show max g.ackedSeq (min p g.sentSeq) = g.ackedSeq + (min p g.sentSeq - g.ackedSeq)
      omega
    · exact hev.trans (Bool.or_true _).symm

theorem apply_pause {g : OutputFlowGate} (c : GateCall) :
    (c.apply g).pauseCount =
      g.pauseCount + (if !g.parked && (c.apply g).parked then 1 else 0) ∧
    (g.parked = false → (c.apply g).parked = true →
      producerFlowHighWatermarkBytes < (c.apply g).inFlight) := by
  cases c with
  | noteSent endSeq =>
    cases endSeq with
    | none =>
      refine ⟨?_, fun h h' => nomatch (h.symm.trans h')⟩
      show g.pauseCount = g.pauseCount + (if !g.parked && g.parked then 1 else 0)
      cases g.parked <;> rfl
    | some e =>
      refine ⟨reevaluatePark_pauseCount (g.mergeSent e), fun hp hp' => ?_⟩
      exact Nat.lt_of_lt_of_eq (reevaluatePark_parks (g := g.mergeSent e) hp hp')
        (reevaluatePark_inFlight (g.mergeSent e)).symm
  | noteAcked p now =>
    let g' := (g.stampAck now).mergeAcked (min p g.sentSeq)
    refine ⟨reevaluatePark_pauseCount g', fun hp hp' => ?_⟩
    exact Nat.lt_of_lt_of_eq (reevaluatePark_parks (g := g') hp hp')
      (reevaluatePark_inFlight g').symm

theorem ackedSeq_run (g : OutputFlowGate) (calls : List GateCall) :
    (Run.run GateCall.apply g calls).ackedSeq = g.ackedSeq + totalAcknowledged g calls := by
  induction calls generalizing g with
  | nil => rfl
  | cons c calls ih =>
    have hc : (c.apply g).ackedSeq = g.ackedSeq + c.acknowledged g := (apply_counters g c).2.2.1
    rw [Run.run_cons, ih, hc, totalAcknowledged, Nat.add_assoc]

theorem everAcked_run (g : OutputFlowGate) (calls : List GateCall) :
    (Run.run GateCall.apply g calls).everAcked = (g.everAcked || calls.any GateCall.isAck) := by
  induction calls generalizing g with
  | nil => exact (Bool.or_false _).symm
  | cons c calls ih =>
    rw [Run.run_cons, ih, (apply_counters g c).2.2.2, List.any_cons, Bool.or_assoc]

theorem parkEnabled_run (g : OutputFlowGate) (calls : List GateCall) :
    (Run.run GateCall.apply g calls).parkEnabled = g.parkEnabled :=
  Run.run_inv (I := fun g' => g'.parkEnabled = g.parkEnabled)
    (fun g' c h => (apply_counters g' c).2.1.trans h) rfl calls

/-- **The accounting of the gate over every run of calls.**  The acknowledged position is behind
the sent one and is the sum of what the calls reported; neither counter ever decreases; on a gate
that parks and was acknowledged once, a level above the high mark means parked and one below the
low mark means not parked; a call parks the gate, and counts it, only at a high level; and a gate
that is disabled or was never acknowledged is not parked. -/
theorem outputFlowGate_accounting (parkEnabled : Bool) (failsafe : Nat)
    (calls : List GateCall) :
    let g := gateAfter parkEnabled failsafe calls
    g.ackedSeq ≤ g.sentSeq ∧ g.inFlight + g.ackedSeq = g.sentSeq ∧
    totalAcknowledged (withFailsafe parkEnabled failsafe) calls = g.ackedSeq ∧
    (∀ c : GateCall, g.sentSeq ≤ (c.apply g).sentSeq ∧ g.ackedSeq ≤ (c.apply g).ackedSeq) ∧
    (parkEnabled = true → calls.any GateCall.isAck = true →
      (producerFlowHighWatermarkBytes < g.inFlight → g.parked = true) ∧
      (g.inFlight < producerFlowLowWatermarkBytes → g.parked = false)) ∧
    (∀ c : GateCall, (c.apply g).pauseCount =
        g.pauseCount + (if !g.parked && (c.apply g).parked then 1 else 0) ∧
      (g.parked = false → (c.apply g).parked = true →
        producerFlowHighWatermarkBytes < (c.apply g).inFlight)) ∧
    (parkEnabled = false ∨ calls.any GateCall.isAck = false → g.parked = false) := by
  intro g
  have h : Settled g := settled_gateAfter parkEnabled failsafe calls
  have hen : g.parkEnabled = parkEnabled := parkEnabled_run _ calls
  have hev : g.everAcked = calls.any GateCall.isAck :=
    (everAcked_run _ calls).trans (false_or _)
  refine ⟨h.acked_le_sent, Nat.sub_add_cancel h.acked_le_sent, ?_, ?_, ?_, ?_, ?_⟩
  · exact ((ackedSeq_run _ calls).trans (Nat.zero_add _)).symm
  · intro c
    obtain ⟨hs, _, ha, _⟩ := apply_counters g c
    exact ⟨hs, ha ▸ Nat.le_add_right _ _⟩
  · intro he ha
    exact ⟨h.high_parked (hen.trans he) (hev.trans ha), h.low_free⟩
  · intro c
    exact apply_pause c
  · intro hoff
    cases hp : g.parked with
    | false => rfl
    | true =>
      obtain ⟨h1, h2⟩ := h.parked_only hp
      rcases hoff with hf | hf
      · exact absurd (h1.symm.trans (hen.trans hf)) true_eq_false.mp
      · exact absurd (h2.symm.trans (hev.trans hf)) true_eq_false.mp

end CcPanes

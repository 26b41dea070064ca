import CcPanes.Foundation.Interleaving
import CcPanes.Terminal.OutputFlowGate

/-!
# The output flow gate under threads

The calls of `OutputFlowGate` cut into their atomic steps: one load, one `fetch_max`, one store or
one section under the `parked` lock each.  The batch thread runs `note_sent`, any number of IPC
threads run `note_acked`, the reader thread runs `park_if_paused`, and the teardown sets
`cancelled` and calls `release`, all in any order.  `reevaluate_park` reads the level before it
takes the lock, so a section may decide on a level that is out of date.
-/

namespace CcPanes

open Interleaving

variable {p : CallPc} {g : OutputFlowGate}

/-! ## the calls -/

/-- where a `note_sent` or `note_acked` call stands, named by its next atomic step; `result` is
what the call will return -/
inductive CallPc where
  | returned (result : Nat)
  | sentUpdate (endSeq : Nat)
  | ackStore (processedEndSeq now : Nat)
  | ackStamp (processedEndSeq now : Nat)
  | ackLoadSent (processedEndSeq : Nat)
  | ackUpdate (capped : Nat)
  | loadEver (result : Nat)
  | loadSent (result : Nat)
  | loadAcked (result sent : Nat)
  | lock (result inFlight : Nat)

open CallPc OutputFlowGate

def callStep (g : OutputFlowGate) : CallPc → OutputFlowGate × CallPc
  | returned result => (g, returned result)
  | sentUpdate endSeq => (g.mergeSent endSeq, loadEver 0)
  | ackStore processedEndSeq now => ({ g with everAcked := true }, ackStamp processedEndSeq now)
  | ackStamp processedEndSeq now => ({ g with lastAckAt := some now }, ackLoadSent processedEndSeq)
  | ackLoadSent processedEndSeq => (g, ackUpdate (min processedEndSeq g.sentSeq))
  | ackUpdate capped => (g.mergeAcked capped, loadEver (capped - g.ackedSeq))
  -- `park_enabled` is a constant of the gate, its test needs no step of its own
  | loadEver result =>
    (g, if g.parkEnabled && g.everAcked then loadSent result else returned result)
  | loadSent result => (g, loadAcked result g.sentSeq)
  | loadAcked result sent => (g, lock result (sent - g.ackedSeq))
  | lock result inFlight => (g.parkSection inFlight, returned result)

def CallPc.inProgress : CallPc → Bool
  | returned _ => false
  | _ => true

/-- `n` steps of one call with no other thread in between -/
def solo : Nat → OutputFlowGate × CallPc → OutputFlowGate × CallPc
  | 0, s => s
  | n + 1, s => solo n (callStep s.1 s.2)

theorem solo_reevaluatePark (g : OutputFlowGate) (result : Nat) :
    solo 4 (g, loadEver result) = (g.reevaluatePark, returned result) := by
  unfold reevaluatePark
  cases he : g.parkEnabled with
  | false => simp [solo, callStep, he]
  | true =>
    cases ha : g.everAcked with
    | false => simp [solo, callStep, he, ha]
    | true => simp [solo, callStep, he, ha, inFlight]

theorem solo_noteSent (g : OutputFlowGate) (endSeq : Nat) :
    solo 5 (g, sentUpdate endSeq) = (g.noteSent (some endSeq), returned 0) :=
  solo_reevaluatePark (g.mergeSent endSeq) 0

theorem solo_noteAcked (g : OutputFlowGate) (processedEndSeq now : Nat) :
    solo 8 (g, ackStore processedEndSeq now) =
      ((g.noteAcked processedEndSeq now).1, returned (g.noteAcked processedEndSeq now).2) :=
  solo_reevaluatePark ((g.stampAck now).mergeAcked (min processedEndSeq g.sentSeq)) _

inductive ParkOutcome where
  | notParked
  | resumed
  | timedOut
  | stalled
  deriving DecidableEq

/-- where the reader stands in `park_if_paused`; `outside` keeps the last outcome -/
inductive ReaderPc where
  | outside (last : Option ParkOutcome)
  | entering
  | waiting
  | resumedStore
  | timeoutCount
  | stalledStore
  deriving DecidableEq

open ReaderPc

/-- the reader takes its next step; a wake-up of the condition variable is a signal, a spurious
one, or the deadline (`timedOut`), the section up to the next wait is one step -/
def readerStep (g : OutputFlowGate) (cancelled timedOut : Bool) :
    ReaderPc → OutputFlowGate × ReaderPc
  | outside _ => (g, entering)
  | entering =>
    if !g.parkEnabled then (g, outside (some .notParked))
    else if !g.parked || cancelled then (g, outside (some .notParked))
    else (g, waiting)
  | waiting =>
    if timedOut then ({ g with parked := false }, timeoutCount)
    else if g.parked && !cancelled then (g, waiting)
    else ({ g with parked := false }, resumedStore)
  | resumedStore => ({ g with consecutiveFailsafeTimeouts := 0 }, outside (some .resumed))
  | timeoutCount =>
    let streak := g.consecutiveFailsafeTimeouts + 1
    ({ g with consecutiveFailsafeTimeouts := streak },
      if streak ≥ failsafeTimeoutsBeforeDesync then stalledStore else outside (some .timedOut))
  | stalledStore => ({ g with consecutiveFailsafeTimeouts := 0 }, outside (some .stalled))

theorem readerStep_gate (g : OutputFlowGate) (cancelled timedOut : Bool) (r : ReaderPc) :
    ∃ (parked : Bool) (timeouts : Nat), (parked = true → g.parked = true) ∧
      (readerStep g cancelled timedOut r).1 =
        { g with parked := parked, consecutiveFailsafeTimeouts := timeouts } := by
  cases r with
  | outside => exact ⟨g.parked, g.consecutiveFailsafeTimeouts, id, rfl⟩
  | entering =>
    refine ⟨g.parked, g.consecutiveFailsafeTimeouts, id, ?_⟩
    simp only [readerStep]
    split
    · rfl
    · split <;> rfl
  | waiting =>
    simp only [readerStep]
    split
    · exact ⟨false, g.consecutiveFailsafeTimeouts, nofun, rfl⟩
    · split
      · exact ⟨g.parked, g.consecutiveFailsafeTimeouts, id, rfl⟩
      · exact ⟨false, g.consecutiveFailsafeTimeouts, nofun, rfl⟩
  | resumedStore => exact ⟨g.parked, 0, id, rfl⟩
  | timeoutCount => exact ⟨g.parked, g.consecutiveFailsafeTimeouts + 1, id, rfl⟩
  | stalledStore => exact ⟨g.parked, 0, id, rfl⟩

/-! ## the world -/

inductive Caller where
  | batch
  | ipc (n : Nat)
  deriving DecidableEq

structure FlowShared where
  gate : OutputFlowGate
  reader : ReaderPc
  cancelled : Bool

abbrev FlowWorld := World Caller FlowShared CallPc

def flowInit (parkEnabled : Bool) (failsafe : Nat) : FlowWorld where
  shared := ⟨withFailsafe parkEnabled failsafe, outside none, false⟩
  pc _ := returned 0

inductive FlowAction where
  | noteSent (endSeq : Option Nat)
  | noteAcked (n processedEndSeq now : Nat)
  | advance (c : Caller)
  | reader (timedOut : Bool)
  | cancel
  | release
  deriving DecidableEq

def flowNext (s : FlowShared) (p : CallPc) : FlowShared × CallPc :=
  ({ s with gate := (callStep s.gate p).1 }, (callStep s.gate p).2)

def startCall (w : FlowWorld) (c : Caller) (p : CallPc) : FlowWorld :=
  if (w.pc c).inProgress then w else setPc w c p

def flowStep (w : FlowWorld) : FlowAction → FlowWorld
  | .noteSent none => startCall w .batch (returned 0)
  | .noteSent (some endSeq) => startCall w .batch (sentUpdate endSeq)
  | .noteAcked n processedEndSeq now => startCall w (.ipc n) (ackStore processedEndSeq now)
  | .advance c => stepThread flowNext w c
  | .reader timedOut =>
    let r := readerStep w.shared.gate w.shared.cancelled timedOut w.shared.reader
    { w with shared := { w.shared with gate := r.1, reader := r.2 } }
  | .cancel => { w with shared := { w.shared with cancelled := true } }
  | .release => { w with shared := { w.shared with gate := w.shared.gate.release } }

/-! ## what every run keeps -/

def ReadsBounded (g : OutputFlowGate) : CallPc → Prop
  | ackStamp _ _ | ackLoadSent _ => g.everAcked = true
  | ackUpdate capped => capped ≤ g.sentSeq
  | loadSent _ | lock _ _ => g.parkEnabled = true ∧ g.everAcked = true
  | loadAcked _ sent => sent ≤ g.sentSeq ∧ g.parkEnabled = true ∧ g.everAcked = true
  | _ => True

structure FlowInv (w : FlowWorld) : Prop where
  acked_le_sent : w.shared.gate.ackedSeq ≤ w.shared.gate.sentSeq
  parked_only : w.shared.gate.parked = true →
    w.shared.gate.parkEnabled = true ∧ w.shared.gate.everAcked = true
  reads : ∀ c, ReadsBounded w.shared.gate (w.pc c)

/-- what only grows under the steps of the calls -/
structure Grows (g g' : OutputFlowGate) : Prop where
  sent : g.sentSeq ≤ g'.sentSeq
  enabled : g'.parkEnabled = g.parkEnabled
  ever : g.everAcked = true → g'.everAcked = true

theorem ReadsBounded.grows {g g' : OutputFlowGate} (h : Grows g g') (hp : ReadsBounded g p) :
    ReadsBounded g' p := by
  cases p with
  | returned => trivial
  | sentUpdate => trivial
  | ackStore => trivial
  | loadEver => trivial
  | ackStamp => exact h.ever hp
  | ackLoadSent => exact h.ever hp
  | ackUpdate => exact Nat.le_trans hp h.sent
  | loadSent => exact ⟨h.enabled.trans hp.1, h.ever hp.2⟩
  | lock => exact ⟨h.enabled.trans hp.1, h.ever hp.2⟩
  | loadAcked =>
    exact ⟨Nat.le_trans hp.1 h.sent, h.enabled.trans hp.2.1, h.ever hp.2.2⟩

theorem callStep_grows (g : OutputFlowGate) (p : CallPc) : Grows g (callStep g p).1 := by
  have hrefl : Grows g g := ⟨Nat.le_refl _, rfl, id⟩
  cases p with
  | returned => exact hrefl
  | sentUpdate => exact ⟨Nat.le_max_left _ _, rfl, id⟩
  | ackStore _ _ => exact ⟨Nat.le_refl _, rfl, fun _ => rfl⟩
  | ackStamp _ _ => exact ⟨Nat.le_refl _, rfl, id⟩
  | ackLoadSent => exact hrefl
  | ackUpdate _ => exact ⟨Nat.le_refl _, rfl, id⟩
  | loadEver => exact hrefl
  | loadSent => exact hrefl
  | loadAcked => exact hrefl
  | lock _ inFlight =>
    refine ⟨?_, parkSection_parkEnabled g inFlight, fun h => ?_⟩
    · exact Nat.le_of_eq (parkSection_sentSeq g inFlight).symm
    · exact (parkSection_everAcked g inFlight).trans h

theorem callStep_reads (hp : ReadsBounded g p) :
    ReadsBounded (callStep g p).1 (callStep g p).2 := by
  cases p with
  | returned => trivial
  | sentUpdate => trivial
  | ackStore => exact rfl
  | ackStamp => exact hp
  | ackLoadSent => exact Nat.min_le_right _ _
  | ackUpdate => trivial
  | loadEver result =>
    show ReadsBounded g (if g.parkEnabled && g.everAcked then loadSent result else returned result)
    split
    · next h => exact Bool.and_eq_true_iff.mp h
    · trivial
  | loadSent _ => exact ⟨Nat.le_refl _, hp⟩
  | loadAcked => exact hp.2
  | lock => trivial

theorem callStep_acked_le_sent (hp : ReadsBounded g p) (h : g.ackedSeq ≤ g.sentSeq) :
    (callStep g p).1.ackedSeq ≤ (callStep g p).1.sentSeq := by
  cases p with
  | sentUpdate => exact Nat.le_trans h (Nat.le_max_left _ _)
  | ackUpdate => exact Nat.max_le.mpr ⟨h, hp⟩
  | lock _ inFlight =>
    show (g.parkSection inFlight).ackedSeq ≤ (g.parkSection inFlight).sentSeq
    rw [parkSection_sentSeq, parkSection_ackedSeq]
    exact h
  | _ => exact h

theorem callStep_parked_only (hp : ReadsBounded g p)
    (h : g.parked = true → g.parkEnabled = true ∧ g.everAcked = true)
    (hpark : (callStep g p).1.parked = true) :
    (callStep g p).1.parkEnabled = true ∧ (callStep g p).1.everAcked = true := by
  have hgrow := callStep_grows g p
  have hg : g.parkEnabled = true ∧ g.everAcked = true := by
    cases p with
    | lock => exact hp
    | _ => exact h hpark
  exact ⟨hgrow.enabled.trans hg.1, hgrow.ever hg.2⟩

theorem flowInv_init (parkEnabled : Bool) (failsafe : Nat) :
    FlowInv (flowInit parkEnabled failsafe) where
  acked_le_sent := Nat.le_refl 0
  parked_only := nofun
  reads _ := trivial

theorem FlowInv.of_reader {w w' : FlowWorld} (h : FlowInv w) (hpc : w'.pc = w.pc)
    {parked : Bool} {timeouts : Nat} (hpark : parked = true → w.shared.gate.parked = true)
    (hg : w'.shared.gate =
      { w.shared.gate with parked := parked, consecutiveFailsafeTimeouts := timeouts }) :
    FlowInv w' := by
  refine ⟨?_, ?_, ?_⟩
  · rw [hg]
    exact h.acked_le_sent
  · rw [hg]
    exact fun hp => h.parked_only (hpark hp)
  · intro c
    rw [hg, hpc]
    exact (h.reads c).grows ⟨Nat.le_refl _, rfl, id⟩

theorem FlowInv.startCall {w : FlowWorld} (h : FlowInv w) (c : Caller)
    (hp : ReadsBounded w.shared.gate p) : FlowInv (startCall w c p) := by
  unfold CcPanes.startCall
  split
  · exact h
  · refine ⟨h.acked_le_sent, h.parked_only, ?_⟩
    exact forall_setPc (J := fun (s : FlowShared) p => ReadsBounded s.gate p) h.reads hp

theorem flowInv_step (w : FlowWorld) (a : FlowAction) (h : FlowInv w) : FlowInv (flowStep w a) := by
  cases a with
  | noteSent endSeq =>
    cases endSeq with
    | none => exact h.startCall .batch trivial
    | some => exact h.startCall .batch trivial
  | noteAcked n => exact h.startCall (.ipc n) trivial
  | advance c =>
    have hc := h.reads c
    refine ⟨callStep_acked_le_sent hc h.acked_le_sent, callStep_parked_only hc h.parked_only, ?_⟩
    exact forall_stepThread (J := fun (s : FlowShared) p => ReadsBounded s.gate p) h.reads
      (callStep_reads hc) fun _ hp => hp.grows (callStep_grows _ _)
  | reader timedOut =>
    obtain ⟨parked, timeouts, hpark, hg⟩ :=
      readerStep_gate w.shared.gate w.shared.cancelled timedOut w.shared.reader
    have hinv : FlowInv (flowStep w (.reader timedOut)) := h.of_reader rfl hpark hg
    exact hinv
  | cancel => exact ⟨h.acked_le_sent, h.parked_only, h.reads⟩
  | release =>
    have hg : (flowStep w .release).shared.gate =
        { w.shared.gate with
          parked := false
          consecutiveFailsafeTimeouts := w.shared.gate.consecutiveFailsafeTimeouts } := rfl
    have hpark : false = true → w.shared.gate.parked = true := nofun
    exact h.of_reader rfl hpark hg

/-! ## what the calls return -/

/-- what a call has added to the acknowledged position and has still to return -/
def CallPc.unreturned : CallPc → Nat
  | loadEver result | loadSent result | loadAcked result _ | lock result _ => result
  | _ => 0

/-- what a call returns in the step that it takes now -/
def returnedBy (w : FlowWorld) : FlowAction → Nat
  | .advance c =>
    match w.pc c, (callStep w.shared.gate (w.pc c)).2 with
    | returned _, _ => 0
    | _, returned result => result
    | _, _ => 0
  | _ => 0

def totalReturned (w : FlowWorld) : List FlowAction → Nat
  | [] => 0
  | a :: as => returnedBy w a + totalReturned (flowStep w a) as

theorem unreturned_idle (h : p.inProgress = false) : p.unreturned = 0 := by
  cases p with
  | returned => rfl
  | _ => cases h

theorem callStep_unreturned (w : FlowWorld) (c : Caller) :
    returnedBy w (.advance c) + (callStep w.shared.gate (w.pc c)).2.unreturned +
        w.shared.gate.ackedSeq =
      (callStep w.shared.gate (w.pc c)).1.ackedSeq + (w.pc c).unreturned := by
  unfold returnedBy
  dsimp only
  cases hp : w.pc c with
  | ackUpdate capped =>
    show 0 + (capped - w.shared.gate.ackedSeq) + w.shared.gate.ackedSeq =
      max w.shared.gate.ackedSeq capped + 0
    omega
  | loadEver result =>
    by_cases hpark : (w.shared.gate.parkEnabled && w.shared.gate.everAcked) = true
    · simp only [callStep, if_pos hpark, unreturned]
      omega
    · simp only [callStep, if_neg hpark, unreturned]
      omega
  | lock result inFlight =>
    simp only [callStep, unreturned, parkSection_ackedSeq]
    omega
  | _ => simp [callStep, unreturned, mergeSent, Nat.add_comm]

theorem flowStep_unreturned (w : FlowWorld) (a : FlowAction) {threads : Finset Caller}
    (ha : ∀ c, a = .advance c → c ∈ threads) :
    returnedBy w a + ∑ c ∈ threads, ((flowStep w a).pc c).unreturned + w.shared.gate.ackedSeq =
      (flowStep w a).shared.gate.ackedSeq + ∑ c ∈ threads, (w.pc c).unreturned := by
  have hstart : ∀ c p, p.unreturned = 0 →
      0 + ∑ c' ∈ threads, ((startCall w c p).pc c').unreturned + w.shared.gate.ackedSeq =
        (startCall w c p).shared.gate.ackedSeq + ∑ c' ∈ threads, (w.pc c').unreturned := by
    intro c p hp
    rw [Nat.zero_add, Nat.add_comm]
    unfold startCall
    split
    · rfl
    next hidle =>
    refine congrArg (w.shared.gate.ackedSeq + ·) (Finset.sum_congr rfl fun c' _ => ?_)
    by_cases hc : c' = c
    · rw [hc, setPc_self, hp, unreturned_idle (Bool.not_eq_true _ ▸ hidle)]
    · rw [setPc_other w c p hc]
  cases a with
  | noteSent endSeq =>
    cases endSeq with
    | none | some => exact hstart _ _ rfl
  | noteAcked => exact hstart _ _ rfl
  | advance c =>
    have hcall := callStep_unreturned w c
    have hsum := sum_setPc (w := w) unreturned (ha c rfl) (callStep w.shared.gate (w.pc c)).2
    show _ + ∑ c' ∈ threads, ((setPc w c _).pc c').unreturned + _ = (callStep _ _).1.ackedSeq + _
    unfold flowNext
    dsimp only
    omega
  | reader timedOut =>
    obtain ⟨parked, timeouts, -, hg⟩ :=
      readerStep_gate w.shared.gate w.shared.cancelled timedOut w.shared.reader
    show 0 + _ + _ = (readerStep _ _ _ _).1.ackedSeq + _
    rw [hg]
    exact (Nat.zero_add _ ▸ Nat.add_comm _ _)
  | cancel | release => exact (Nat.zero_add _ ▸ Nat.add_comm _ _)

theorem totalReturned_eq (w : FlowWorld) (as : List FlowAction) {threads : Finset Caller}
    (has : ∀ c, .advance c ∈ as → c ∈ threads) :
    totalReturned w as + ∑ c ∈ threads, ((Run.run flowStep w as).pc c).unreturned +
        w.shared.gate.ackedSeq =
      (Run.run flowStep w as).shared.gate.ackedSeq + ∑ c ∈ threads, (w.pc c).unreturned := by
  induction as generalizing w with
  | nil => exact Nat.zero_add _ ▸ Nat.add_comm _ _
  | cons a as ih =>
    have hstep := flowStep_unreturned w a fun c hc => has c (hc ▸ List.mem_cons_self)
    have hrest := ih (flowStep w a) fun c hc => has c (List.mem_cons_of_mem a hc)
    rw [Run.run_cons, totalReturned]
    omega

/-- **Every acknowledged position is counted once**, whichever calls run beside each other: what
the calls have returned is at most what is acknowledged, and all of it when no call is in
progress; and no more is acknowledged than was sent. -/
theorem acks_counted_once (parkEnabled : Bool) (failsafe : Nat) (as : List FlowAction) :
    let w := Run.run flowStep (flowInit parkEnabled failsafe) as
    let total := totalReturned (flowInit parkEnabled failsafe) as
    total ≤ w.shared.gate.ackedSeq ∧ w.shared.gate.ackedSeq ≤ w.shared.gate.sentSeq ∧
      ((∀ c, (w.pc c).inProgress = false) → total = w.shared.gate.ackedSeq) := by
  intro w total
  let callers := as.filterMap fun | .advance c => some c | _ => none
  have hcallers : ∀ c, .advance c ∈ as → c ∈ callers.toFinset := fun c hc =>
    List.mem_toFinset.mpr (List.mem_filterMap.mpr ⟨_, hc, rfl⟩)
  have htotal : total + ∑ c ∈ callers.toFinset, (w.pc c).unreturned + 0 =
      w.shared.gate.ackedSeq + ∑ c ∈ callers.toFinset, (returned 0).unreturned :=
    totalReturned_eq (flowInit parkEnabled failsafe) as hcallers
  have hnone : ∑ c ∈ callers.toFinset, (returned 0).unreturned = 0 :=
    Finset.sum_eq_zero fun _ _ => rfl
  refine ⟨by omega, ?_, fun hidle => ?_⟩
  · exact (Run.run_inv flowInv_step (flowInv_init parkEnabled failsafe) as).acked_le_sent
  · have hdone : ∑ c ∈ callers.toFinset, (w.pc c).unreturned = 0 :=
      Finset.sum_eq_zero fun c _ => unreturned_idle (hidle c)
    omega

end CcPanes

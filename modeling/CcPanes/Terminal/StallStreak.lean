import CcPanes.Terminal.OutputFlowThreads

/-!
# The streak behind a stall

The reader reports a stall when a park times out and so did the parks before it.  The counter of
timeouts is only reset by a park that is woken; output that is acknowledged while the reader is not
parked resets nothing.  A trace of the gate records how its parks ended and whether the level has
been low since the first park of the streak.
-/

namespace CcPanes

open ReaderPc OutputFlowGate Bool List

variable {t : StallTrace} {timedOut : Bool}

/-- what a report of a stall rests on: the parks before it, newest first, and whether the level was
low since the first of them began -/
structure StallReport where
  previous : List ParkOutcome
  low : Bool
  deriving DecidableEq

structure StallTrace where
  world : FlowWorld
  low : Bool
  lowInPark : Bool
  outcomes : List ParkOutcome
  stalls : List StallReport

def stallInit (parkEnabled : Bool) (failsafe : Nat) : StallTrace :=
  ⟨flowInit parkEnabled failsafe, false, false, [], []⟩

def isLow (w : FlowWorld) : Bool := w.shared.gate.inFlight < producerFlowLowWatermarkBytes

def beginsPark (w : FlowWorld) (a : FlowAction) : Bool :=
  w.shared.reader = entering && (flowStep w a).shared.reader = waiting

def parkEnd (w : FlowWorld) : FlowAction → Option ParkOutcome
  | .reader _ =>
    match w.shared.reader with
    | resumedStore => some .resumed
    | timeoutCount =>
      if w.shared.gate.consecutiveFailsafeTimeouts + 1 ≥ failsafeTimeoutsBeforeDesync then
        some .stalled
      else some .timedOut
    | _ => none
  | _ => none

def stallStep (t : StallTrace) (a : FlowAction) : StallTrace where
  world := flowStep t.world a
  low :=
    (t.low && !(beginsPark t.world a && t.world.shared.gate.consecutiveFailsafeTimeouts = 0)) ||
      isLow (flowStep t.world a)
  lowInPark := (t.lowInPark && !beginsPark t.world a) || isLow (flowStep t.world a)
  outcomes := (parkEnd t.world a).toList ++ t.outcomes
  stalls :=
    if parkEnd t.world a = some .stalled then ⟨t.outcomes, t.low⟩ :: t.stalls else t.stalls

/-- the parks before the stalled one timed out, and since the first began the level was not low -/
def StallFounded (r : StallReport) : Prop :=
  r.previous.take (failsafeTimeoutsBeforeDesync - 1) =
      replicate (failsafeTimeoutsBeforeDesync - 1) .timedOut ∧
    r.low = false

def StallsFounded (t : StallTrace) : Prop := ∀ r ∈ t.stalls, StallFounded r

/-- a timeout is counted, or about to be, and the reader is not in a park that may still be woken -/
def countsTimeout (timeouts : Nat) : ReaderPc → Bool
  | waiting | resumedStore | stalledStore => false
  | timeoutCount => true
  | outside _ | entering => timeouts ≠ 0

def betweenTimeouts (w : FlowWorld) : Bool :=
  countsTimeout w.shared.gate.consecutiveFailsafeTimeouts w.shared.reader

/-- The level does not get low between two timeouts, and the deadline does not end a park in which
it was low. -/
def StepKeepsLevel (t : StallTrace) (a : FlowAction) : Prop :=
  (betweenTimeouts t.world = true → isLow t.world = false → isLow (flowStep t.world a) = false) ∧
    (a = .reader true → t.world.shared.reader = waiting → t.lowInPark = false)

instance (t : StallTrace) (a : FlowAction) : Decidable (StepKeepsLevel t a) := by
  unfold StepKeepsLevel
  infer_instance

/-! ## what a step does to the reader -/

abbrev FlowWorld.timeouts (w : FlowWorld) : Nat := w.shared.gate.consecutiveFailsafeTimeouts

abbrev Counted (outcomes : List ParkOutcome) (timeouts : Nat) : Prop :=
  timeouts < failsafeTimeoutsBeforeDesync ∧ outcomes.take timeouts = replicate timeouts .timedOut

theorem startCall_shared (w : FlowWorld) (c : Caller) (p : CallPc) :
    (startCall w c p).shared = w.shared := by
  unfold startCall
  split
  · rfl
  · rfl

theorem parkSection_timeouts (g : OutputFlowGate) (v : Nat) :
    (g.parkSection v).consecutiveFailsafeTimeouts = g.consecutiveFailsafeTimeouts := by
  unfold parkSection
  split <;> split <;> rfl

theorem callStep_timeouts (g : OutputFlowGate) (p : CallPc) :
    (callStep g p).1.consecutiveFailsafeTimeouts = g.consecutiveFailsafeTimeouts := by
  cases p with
  | lock result inFlight => exact parkSection_timeouts g inFlight
  | _ => rfl

theorem flowStep_other (w : FlowWorld) {a : FlowAction} (h : ∀ timedOut, a ≠ .reader timedOut) :
    (flowStep w a).shared.reader = w.shared.reader ∧
      (flowStep w a).timeouts = w.timeouts := by
  unfold FlowWorld.timeouts
  cases a with
  | noteSent endSeq =>
    cases endSeq with
    | none | some =>
      show (startCall w .batch _).shared.reader = _ ∧ _
      rw [flowStep, startCall_shared]
      exact ⟨rfl, rfl⟩
  | noteAcked n =>
    show (startCall w (.ipc n) _).shared.reader = _ ∧ _
    rw [flowStep, startCall_shared]
    exact ⟨rfl, rfl⟩
  | advance c => exact ⟨rfl, callStep_timeouts w.shared.gate (w.pc c)⟩
  | reader timedOut => exact absurd rfl (h timedOut)
  | cancel => exact ⟨rfl, rfl⟩
  | release => exact ⟨rfl, rfl⟩

theorem isLow_reader (w : FlowWorld) (timedOut : Bool) :
    isLow (flowStep w (.reader timedOut)) = isLow w := by
  obtain ⟨parked, timeouts, -, hg⟩ :=
    readerStep_gate w.shared.gate w.shared.cancelled timedOut w.shared.reader
  show decide ((readerStep _ _ _ _).1.inFlight < _) = _
  rw [hg]
  rfl

/-! ## the streak -/

structure StreakInv (t : StallTrace) : Prop where
  counted : t.world.shared.reader ≠ stalledStore →
    t.world.shared.gate.consecutiveFailsafeTimeouts < failsafeTimeoutsBeforeDesync ∧
      t.outcomes.take t.world.shared.gate.consecutiveFailsafeTimeouts =
        replicate t.world.shared.gate.consecutiveFailsafeTimeouts .timedOut
  between : betweenTimeouts t.world = true → t.low = false ∧ isLow t.world = false
  inPark : t.world.shared.reader = waiting → t.lowInPark = false →
    t.low = false ∧ isLow t.world = false
  founded : StallsFounded t

theorem streakInv_init (parkEnabled : Bool) (failsafe : Nat) :
    StreakInv (stallInit parkEnabled failsafe) where
  counted _ := ⟨Nat.zero_lt_succ 1, rfl⟩
  between h := nomatch h
  inPark := nofun
  founded := nofun

section
variable {a : FlowAction}

theorem low_of_stays (hbegins : beginsPark t.world a = false) :
    (stallStep t a).low = (t.low || isLow (flowStep t.world a)) := by
  show ((t.low && !(beginsPark t.world a && _)) || _) = _
  rw [hbegins, Bool.false_and, Bool.not_false, Bool.and_true]

theorem lowInPark_of_stays (hbegins : beginsPark t.world a = false) :
    (stallStep t a).lowInPark = (t.lowInPark || isLow (flowStep t.world a)) := by
  show ((t.lowInPark && !beginsPark t.world a) || _) = _
  rw [hbegins, Bool.not_false, Bool.and_true]

theorem founded_of_end (h : StreakInv t) (hend : parkEnd t.world a ≠ some .stalled) :
    StallsFounded (stallStep t a) := by
  intro r hr
  have hstalls : (stallStep t a).stalls = t.stalls := if_neg hend
  rw [hstalls] at hr
  exact h.founded r hr

end

theorem streakInv_other (h : StreakInv t) {a : FlowAction} (ha : StepKeepsLevel t a)
    (hother : ∀ timedOut, a ≠ .reader timedOut) : StreakInv (stallStep t a) := by
  obtain ⟨hreader, htimeouts⟩ := flowStep_other t.world hother
  have hbegins : beginsPark t.world a = false := by
    unfold beginsPark
    rw [hreader]
    cases t.world.shared.reader <;> rfl
  have hend : parkEnd t.world a = none := by
    cases a with
    | reader timedOut => exact absurd rfl (hother timedOut)
    | _ => rfl
  have hbetween : betweenTimeouts (flowStep t.world a) = betweenTimeouts t.world := by
    show countsTimeout (flowStep t.world a).timeouts (flowStep t.world a).shared.reader = _
    rw [hreader, htimeouts]
    rfl
  have hlow := low_of_stays hbegins
  have hlowInPark := lowInPark_of_stays hbegins
  have houtcomes : (stallStep t a).outcomes = t.outcomes := by
    show (parkEnd t.world a).toList ++ t.outcomes = _
    rw [hend]
    rfl
  refine ⟨?_, ?_, ?_, founded_of_end h (by rw [hend]; nofun)⟩
  · intro hne
    rw [houtcomes]
    show Counted t.outcomes (flowStep t.world a).timeouts
    rw [htimeouts]
    apply h.counted
    rw [← hreader]
    exact hne
  · intro hb
    have hb' : betweenTimeouts t.world = true := hbetween.symm.trans hb
    have hstill := ha.1 hb' (h.between hb').2
    refine ⟨?_, hstill⟩
    rw [hlow, (h.between hb').1, hstill]
    rfl
  · intro hwaiting hpark
    rw [hlowInPark, or_eq_false_iff] at hpark
    have hwas := h.inPark (hreader.symm.trans hwaiting) hpark.1
    refine ⟨?_, hpark.2⟩
    rw [hlow, hwas.1, hpark.2]
    rfl

theorem streakInv_stays (h : StreakInv t)
    (hbegins : beginsPark t.world (.reader timedOut) = false)
    (hend : parkEnd t.world (.reader timedOut) = none)
    (htimeouts : (flowStep t.world (.reader timedOut)).timeouts = t.world.timeouts)
    (hstalled : t.world.shared.reader ≠ stalledStore)
    (hbetween : betweenTimeouts (flowStep t.world (.reader timedOut)) = true →
      t.low = false ∧ isLow t.world = false)
    (hwaiting : (flowStep t.world (.reader timedOut)).shared.reader = waiting →
      t.world.shared.reader = waiting) : StreakInv (stallStep t (.reader timedOut)) := by
  have hlevel := isLow_reader t.world timedOut
  have hlow := low_of_stays hbegins
  have hlowInPark := lowInPark_of_stays hbegins
  rw [hlevel] at hlow hlowInPark
  refine ⟨?_, ?_, ?_, founded_of_end h (by rw [hend]; nofun)⟩
  · intro _
    show Counted ((parkEnd t.world (.reader timedOut)).toList ++ t.outcomes)
      (flowStep t.world (.reader timedOut)).timeouts
    rw [htimeouts, hend]
    exact h.counted hstalled
  · intro hb
    obtain ⟨hl, hi⟩ := hbetween hb
    refine ⟨?_, hlevel.trans hi⟩
    rw [hlow, hl, hi]
    rfl
  · intro hw hpark
    rw [hlowInPark, or_eq_false_iff] at hpark
    have hwas := h.inPark (hwaiting hw) hpark.1
    refine ⟨?_, hlevel.trans hpark.2⟩
    rw [hlow, hwas.1, hpark.2]
    rfl

theorem streakInv_reset (h : StreakInv t) {last : Option ParkOutcome}
    (hreader : (flowStep t.world (.reader timedOut)).shared.reader = outside last)
    (htimeouts : (flowStep t.world (.reader timedOut)).timeouts = 0)
    (hend : parkEnd t.world (.reader timedOut) ≠ some .stalled) :
    StreakInv (stallStep t (.reader timedOut)) := by
  refine ⟨?_, ?_, ?_, founded_of_end h hend⟩
  · intro _
    show Counted _ (flowStep t.world (.reader timedOut)).timeouts
    rw [htimeouts]
    exact ⟨Nat.zero_lt_succ 1, rfl⟩
  · intro hb
    change countsTimeout (flowStep t.world (.reader timedOut)).timeouts
      (flowStep t.world (.reader timedOut)).shared.reader = true at hb
    rw [hreader, htimeouts] at hb
    cases hb
  · intro hw
    cases hreader.symm.trans hw

theorem streakInv_count (h : StreakInv t) (timedOut : Bool)
    (hr : t.world.shared.reader = timeoutCount) : StreakInv (stallStep t (.reader timedOut)) := by
  have hb : betweenTimeouts t.world = true := by
    unfold betweenTimeouts
    rw [hr]
    rfl
  obtain ⟨hlow, hlevel⟩ := h.between hb
  obtain ⟨hlt, htake⟩ : Counted t.outcomes t.world.timeouts := h.counted (by rw [hr]; nofun)
  have hbegins : beginsPark t.world (.reader timedOut) = false := by
    unfold beginsPark
    rw [hr]
    rfl
  have htimeouts : (flowStep t.world (.reader timedOut)).timeouts = t.world.timeouts + 1 := by
    show (readerStep _ _ _ t.world.shared.reader).1.consecutiveFailsafeTimeouts = _
    rw [hr]
    rfl
  have hlow' : (stallStep t (.reader timedOut)).low = false := by
    show ((t.low && !(beginsPark t.world (.reader timedOut) && _)) || _) = _
    rw [hlow, isLow_reader, hlevel]
    rfl
  by_cases hlast : t.world.timeouts + 1 ≥ failsafeTimeoutsBeforeDesync
  · -- the streak is complete
    have hreader : (flowStep t.world (.reader timedOut)).shared.reader = stalledStore := by
      show (readerStep _ _ _ t.world.shared.reader).2 = _
      rw [hr]
      exact if_pos hlast
    have hend : parkEnd t.world (.reader timedOut) = some .stalled := by
      unfold parkEnd
      rw [hr]
      exact if_pos hlast
    have hcount : t.world.timeouts = failsafeTimeoutsBeforeDesync - 1 := by omega
    refine ⟨fun hne => absurd hreader hne, ?_, ?_, ?_⟩
    · intro hb'
      change countsTimeout _ (flowStep t.world (.reader timedOut)).shared.reader = true at hb'
      rw [hreader] at hb'
      cases hb'
    · intro hw
      cases hreader.symm.trans hw
    have hstalls : (stallStep t (.reader timedOut)).stalls = ⟨t.outcomes, t.low⟩ :: t.stalls :=
      if_pos hend
    intro r hmem
    rw [hstalls, mem_cons] at hmem
    obtain rfl | hmem := hmem
    · refine ⟨?_, hlow⟩
      rw [← hcount]
      exact htake
    · exact h.founded r hmem
  have hreader : (flowStep t.world (.reader timedOut)).shared.reader =
      outside (some .timedOut) := by
    show (readerStep _ _ _ t.world.shared.reader).2 = _
    rw [hr]
    exact if_neg hlast
  have hend : parkEnd t.world (.reader timedOut) = some .timedOut := by
    unfold parkEnd
    rw [hr]
    exact if_neg hlast
  refine ⟨?_, ?_, ?_, founded_of_end h (by rw [hend]; decide)⟩
  · intro _
    show Counted ((parkEnd t.world (.reader timedOut)).toList ++ t.outcomes)
      (flowStep t.world (.reader timedOut)).timeouts
    rw [htimeouts, hend]
    exact ⟨Nat.lt_of_not_le hlast, congrArg (ParkOutcome.timedOut :: ·) htake⟩
  · intro _
    exact ⟨hlow', (isLow_reader t.world timedOut).trans hlevel⟩
  · intro hw
    cases hreader.symm.trans hw

theorem streakInv_begin (h : StreakInv t)
    (hr : t.world.shared.reader = entering)
    (hstep : readerStep t.world.shared.gate t.world.shared.cancelled timedOut entering =
      (t.world.shared.gate, waiting)) : StreakInv (stallStep t (.reader timedOut)) := by
  have hgate : (flowStep t.world (.reader timedOut)).shared.gate = t.world.shared.gate := by
    show (readerStep _ _ _ t.world.shared.reader).1 = _
    rw [hr, hstep]
  have hreader : (flowStep t.world (.reader timedOut)).shared.reader = waiting := by
    show (readerStep _ _ _ t.world.shared.reader).2 = _
    rw [hr, hstep]
  have hbegins : beginsPark t.world (.reader timedOut) = true := by
    unfold beginsPark
    rw [hr, hreader]
    rfl
  have hend : parkEnd t.world (.reader timedOut) = none := by
    unfold parkEnd
    rw [hr]
  have hlow : (stallStep t (.reader timedOut)).low =
      ((t.low && !decide (t.world.timeouts = 0)) || isLow t.world) := by
    show ((t.low && !(beginsPark t.world (.reader timedOut) && _)) || _) = _
    rw [hbegins, isLow_reader, Bool.true_and]
  have hlowInPark : (stallStep t (.reader timedOut)).lowInPark = isLow t.world := by
    show ((t.lowInPark && !beginsPark t.world (.reader timedOut)) || _) = _
    rw [hbegins, isLow_reader, Bool.not_true, Bool.and_false, Bool.false_or]
  refine ⟨?_, ?_, ?_, founded_of_end h (by rw [hend]; nofun)⟩
  · intro _
    show Counted ((parkEnd t.world (.reader timedOut)).toList ++ t.outcomes)
      (flowStep t.world (.reader timedOut)).timeouts
    rw [FlowWorld.timeouts, hgate, hend]
    exact h.counted (by rw [hr]; nofun)
  · intro hb
    change countsTimeout _ (flowStep t.world (.reader timedOut)).shared.reader = true at hb
    rw [hreader] at hb
    cases hb
  intro _ hpark
  rw [hlowInPark] at hpark
  refine ⟨?_, (isLow_reader t.world timedOut).trans hpark⟩
  rw [hlow, hpark, Bool.or_false]
  by_cases hzero : t.world.timeouts = 0
  · rw [decide_eq_true hzero, Bool.not_true, Bool.and_false]
  -- a timeout is counted, so the level has not been low
  have hb : betweenTimeouts t.world = true := by
    unfold betweenTimeouts
    rw [hr]
    exact decide_eq_true hzero
  rw [(h.between hb).1, Bool.false_and]

theorem readerStep_entering (g : OutputFlowGate) (cancelled timedOut : Bool) :
    readerStep g cancelled timedOut entering = (g, outside (some .notParked)) ∨
      readerStep g cancelled timedOut entering = (g, waiting) := by
  rw [readerStep]
  split
  · exact .inl rfl
  · split
    · exact .inl rfl
    · exact .inr rfl

theorem streakInv_reader (h : StreakInv t) (ha : StepKeepsLevel t (.reader timedOut)) :
    StreakInv (stallStep t (.reader timedOut)) := by
  have hnext : (flowStep t.world (.reader timedOut)).shared.reader =
      (readerStep t.world.shared.gate t.world.shared.cancelled timedOut t.world.shared.reader).2 := rfl
  have hgate : (flowStep t.world (.reader timedOut)).shared.gate =
      (readerStep t.world.shared.gate t.world.shared.cancelled timedOut t.world.shared.reader).1 := rfl
  have hbegins : t.world.shared.reader ≠ entering →
      beginsPark t.world (.reader timedOut) = false := by
    intro hne
    unfold beginsPark
    rw [decide_eq_false hne, Bool.false_and]
  have hcounts : betweenTimeouts t.world =
      countsTimeout t.world.shared.gate.consecutiveFailsafeTimeouts t.world.shared.reader := rfl
  have hcounts' : betweenTimeouts (flowStep t.world (.reader timedOut)) =
      countsTimeout (flowStep t.world (.reader timedOut)).shared.gate.consecutiveFailsafeTimeouts
        (flowStep t.world (.reader timedOut)).shared.reader := rfl
  cases hr : t.world.shared.reader with
  | outside =>
    rw [hr] at hnext hgate hbegins hcounts
    refine streakInv_stays h (hbegins (by simp)) ?_ ?_ ?_ ?_ ?_
    · unfold parkEnd
      rw [hr]
    · rw [FlowWorld.timeouts, hgate]
      rfl
    · simp [hr]
    · intro hb
      rw [hcounts', hnext, hgate] at hb
      exact h.between (hcounts.trans hb)
    · intro hw
      cases hnext.symm.trans hw
  | entering =>
    obtain hstep | hstep := readerStep_entering t.world.shared.gate t.world.shared.cancelled timedOut
    · rw [hr, hstep] at hnext hgate
      rw [hr] at hcounts
      refine streakInv_stays h ?_ ?_ ?_ ?_ ?_ ?_
      · unfold beginsPark
        rw [hnext]
        exact and_false _
      · unfold parkEnd
        rw [hr]
      · rw [FlowWorld.timeouts, hgate]
      · simp [hr]
      · intro hb
        rw [hcounts', hnext, hgate] at hb
        exact h.between (hcounts.trans hb)
      · intro hw
        cases hnext.symm.trans hw
    · exact streakInv_begin h hr hstep
  | waiting =>
    rw [hr] at hnext hgate hbegins
    have hend : parkEnd t.world (.reader timedOut) = none := by
      unfold parkEnd
      rw [hr]
    have hstalled : t.world.shared.reader ≠ stalledStore := by
      simp [hr]
    have htimeouts : (flowStep t.world (.reader timedOut)).timeouts = t.world.timeouts := by
      rw [FlowWorld.timeouts, hgate, readerStep]
      split
      · rfl
      · split
        · rfl
        · rfl
    refine streakInv_stays h (hbegins (by simp)) hend htimeouts hstalled ?_ fun _ => hr
    intro hb
    cases timedOut with
    | true => exact h.inPark hr (ha.2 rfl hr)
    | false =>
      -- a reader that is woken, or waits on, counts no timeout
      rw [hcounts', hnext, readerStep, if_neg Bool.false_ne_true] at hb
      split at hb
      · cases hb
      · cases hb
  | resumedStore =>
    rw [hr] at hnext hgate
    refine streakInv_reset h hnext ?_ ?_
    · rw [FlowWorld.timeouts, hgate]
      rfl
    unfold parkEnd
    rw [hr]
    show some ParkOutcome.resumed ≠ some .stalled
    decide
  | timeoutCount => exact streakInv_count h timedOut hr
  | stalledStore =>
    rw [hr] at hnext hgate
    refine streakInv_reset h hnext ?_ ?_
    · rw [FlowWorld.timeouts, hgate]
      rfl
    · unfold parkEnd
      simp [hr]

theorem streakInv_step (t : StallTrace) (a : FlowAction) (h : StreakInv t)
    (ha : StepKeepsLevel t a) : StreakInv (stallStep t a) := by
  cases a with
  | reader => exact streakInv_reader h ha
  | noteSent | noteAcked | advance | cancel | release =>
    exact streakInv_other h ha nofun

/-- **Stalls count consecutive timeouts only.**  In a run in which the level does not get low between
two timeouts, and no deadline ends a park in which it was low, every report of a stall rests on parks
that timed out, and the level was not low since the first of them began. -/
theorem stallFounded_run (parkEnabled : Bool) (failsafe : Nat) (as : List FlowAction)
    (h : Run.StepsOk stallStep StepKeepsLevel (stallInit parkEnabled failsafe) as) :
    Run.Along stallStep StallsFounded (stallInit parkEnabled failsafe) as :=
  (Run.along_of_inv streakInv_step (streakInv_init parkEnabled failsafe) h).mono
    fun _ hinv => hinv.founded

def floodSchedule : List FlowAction :=
  [.noteSent (some 1)] ++ replicate 5 (.advance .batch) ++
  [.noteAcked 0 1 0] ++ replicate 8 (.advance (.ipc 0)) ++
  [.noteSent (some (producerFlowHighWatermarkBytes + 2))] ++ replicate 5 (.advance .batch)

def timeoutSchedule : List FlowAction := [.reader false, .reader false, .reader true, .reader false]

def sendMore : List FlowAction :=
  [.noteSent (some (3 * producerFlowHighWatermarkBytes))] ++ replicate 5 (.advance .batch)

/-- nothing is acknowledged between two timeouts -/
theorem stallFounded_silent :
    Run.Along stallStep StallsFounded (stallInit producerFlowControlEnabled producerPauseFailsafe)
      (floodSchedule ++ timeoutSchedule ++ sendMore ++ timeoutSchedule) :=
  stallFounded_run _ _ _ (by decide +kernel)

/-- everything is acknowledged between two timeouts, while the reader is not parked -/
def drainedSchedule : List FlowAction :=
  floodSchedule ++ timeoutSchedule ++
  [.noteAcked 0 (producerFlowHighWatermarkBytes + 2) 0] ++ replicate 8 (.advance (.ipc 0)) ++
  sendMore ++ timeoutSchedule

theorem drainedSchedule_stalls :
    ¬StallsFounded (Run.run stallStep
      (stallInit producerFlowControlEnabled producerPauseFailsafe) drainedSchedule) := by
  intro h
  have hreport := h ⟨[.timedOut], true⟩ (by decide +kernel)
  cases hreport.2

end CcPanes

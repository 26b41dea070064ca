import CcPanes.Terminal.OutputFlowThreads

/-!
# Parks that are out of date

A section of `reevaluate_park` decides on a level read before the lock was taken.  If that level
was high, and everything was acknowledged and evaluated in between, the gate is parked on a
drained queue, and only the failsafe of the reader frees it.
-/

namespace CcPanes

open Interleaving CallPc OutputFlowGate Bool List

variable {w : FlowWorld}

/-- a call in progress that will still release a parked gate whose level is low -/
def CallPc.undecided : CallPc → Bool
  | returned _ => false
  | lock _ inFlight => inFlight < producerFlowLowWatermarkBytes
  | _ => true

/-- with no call in progress, a parked gate has bytes left to be acknowledged -/
def NoStalePark (w : FlowWorld) : Prop :=
  (∀ c, (w.pc c).inProgress = false) → w.shared.gate.parked = true →
    producerFlowLowWatermarkBytes ≤ w.shared.gate.inFlight

/-- a section that parks does so on a level that is still not low, or while another call is going
to decide again -/
def StepOk (w : FlowWorld) : FlowAction → Prop
  | .advance c =>
    match w.pc c with
    | lock _ inFlight =>
      w.shared.gate.parked = false → producerFlowHighWatermarkBytes < inFlight →
        producerFlowLowWatermarkBytes ≤ w.shared.gate.inFlight ∨
        ∃ c', c' ≠ c ∧ (w.pc c').undecided = true
    | _ => True
  | _ => True

/-- a parked gate with a low level has a call that will release it -/
def InCharge (w : FlowWorld) : Prop :=
  w.shared.gate.parked = true → w.shared.gate.inFlight < producerFlowLowWatermarkBytes →
    ∃ c, (w.pc c).undecided = true

theorem InCharge.noStalePark (h : InCharge w) : NoStalePark w := by
  intro hidle hpark
  rcases Nat.lt_or_ge w.shared.gate.inFlight producerFlowLowWatermarkBytes with hlow | hge
  · obtain ⟨c, hc⟩ := h hpark hlow
    have hret := hidle c
    cases hp : w.pc c with
    | returned =>
      rw [hp] at hc
      cases hc
    | _ =>
      rw [hp] at hret
      cases hret.symm
  · exact hge

theorem callStep_undecided {g : OutputFlowGate} {p : CallPc} (hb : ReadsBounded g p)
    (hon : g.parked = true → g.parkEnabled = true ∧ g.everAcked = true)
    (hp : p.inProgress = true) (hlock : ∀ r v, p ≠ lock r v)
    (hpark : (callStep g p).1.parked = true)
    (hlow : (callStep g p).1.inFlight < producerFlowLowWatermarkBytes) :
    (callStep g p).2.undecided = true := by
  cases p with
  | returned => cases hp
  | lock r v => exact absurd rfl (hlock r v)
  | loadEver result =>
    obtain ⟨h1, h2⟩ := hon hpark
    have hnext : (callStep g (loadEver result)).2 = loadSent result := by
      simp [callStep, h1, h2]
    rw [hnext]
    rfl
  | loadAcked result sent =>
    show decide (sent - g.ackedSeq < producerFlowLowWatermarkBytes) = true
    have hlow' : g.sentSeq - g.ackedSeq < producerFlowLowWatermarkBytes := hlow
    have hs : sent ≤ g.sentSeq := hb.1
    exact decide_eq_true (by omega)
  | _ => rfl

theorem inCharge_advance (h : FlowInv w) (hin : InCharge w) (c : Caller)
    (hok : StepOk w (.advance c)) : InCharge (flowStep w (.advance c)) := by
  intro hpark hlow
  have hself : (flowStep w (.advance c)).pc c = (callStep w.shared.gate (w.pc c)).2 :=
    stepThread_self w c flowNext
  have hother : ∀ c', c' ≠ c → (flowStep w (.advance c)).pc c' = w.pc c' :=
    fun c' hne => stepThread_other w c flowNext hne
  cases hp : w.pc c with
  | returned r =>
    have hsame : flowStep w (.advance c) = setPc w c (returned r) := by
      show stepThread flowNext w c = setPc w c (returned r)
      unfold stepThread flowNext
      rw [hp]
      rfl
    rw [hsame] at hpark hlow ⊢
    refine exists_setPc (J := fun p : CallPc => p.undecided = true) (hin hpark hlow) ?_
    rw [hp]
    exact id
  | lock r v =>
    -- the other calls stand where they stood, and one of them was in charge
    suffices hex : ∃ c', c' ≠ c ∧ (w.pc c').undecided = true by
      obtain ⟨c', hne, hc'⟩ := hex
      exact ⟨c', by rw [hother c' hne]; exact hc'⟩
    have hg : (flowStep w (.advance c)).shared.gate = w.shared.gate.parkSection v := by
      show (callStep w.shared.gate (w.pc c)).1 = _
      rw [hp]
      rfl
    rw [hg, parkSection_inFlight] at hlow
    rw [hg, parkSection_parked] at hpark
    rcases hpark with ⟨hwas, hv⟩ | ⟨hwas, hv⟩
    · obtain ⟨c', hc'⟩ := hin hwas hlow
      refine ⟨c', ?_, hc'⟩
      rintro rfl
      rw [hp] at hc'
      exact absurd (of_decide_eq_true hc') (Nat.not_lt.mpr hv)
    · simp only [StepOk, hp] at hok
      rcases hok hwas hv with hge | hex
      · exact absurd hlow (Nat.not_lt.mpr hge)
      · exact hex
  | _ =>
    refine ⟨c, ?_⟩
    rw [hself]
    refine callStep_undecided (h.reads c) h.parked_only ?_ ?_ hpark hlow
    · rw [hp]
      rfl
    · intro r v
      rw [hp]
      nofun

theorem inCharge_startCall (hin : InCharge w) (c : Caller) (p : CallPc) :
    InCharge (startCall w c p) := by
  unfold startCall
  split
  · exact hin
  next hidle =>
  intro hpark hlow
  refine exists_setPc (J := fun p : CallPc => p.undecided = true) (hin hpark hlow) ?_
  cases hp : w.pc c with
  | returned => nofun
  | _ =>
    rw [hp] at hidle
    exact absurd rfl hidle

theorem inCharge_step (h : FlowInv w) (hin : InCharge w) (a : FlowAction) (hok : StepOk w a) :
    InCharge (flowStep w a) := by
  cases a with
  | noteSent endSeq =>
    cases endSeq with
    | none => exact inCharge_startCall hin .batch _
    | some => exact inCharge_startCall hin .batch _
  | noteAcked n => exact inCharge_startCall hin (.ipc n) _
  | advance c => exact inCharge_advance h hin c hok
  | reader timedOut =>
    obtain ⟨parked, timeouts, hpark, hg⟩ :=
      readerStep_gate w.shared.gate w.shared.cancelled timedOut w.shared.reader
    have hg' : (flowStep w (.reader timedOut)).shared.gate =
      { w.shared.gate with parked := parked, consecutiveFailsafeTimeouts := timeouts } := hg
    intro hp hlow
    rw [hg'] at hp hlow
    exact hin (hpark hp) hlow
  | cancel => exact hin
  | release => nofun

/-! ## after a step that is not ok -/

structure Stuck (w : FlowWorld) : Prop where
  parked : w.shared.gate.parked = true
  low : w.shared.gate.inFlight < producerFlowLowWatermarkBytes
  decided : ∀ c, (w.pc c).undecided = false

theorem decided_cases {p : CallPc} (h : p.undecided = false) :
    (∃ r, p = returned r) ∨ ∃ r v, p = lock r v ∧ producerFlowLowWatermarkBytes ≤ v := by
  cases p with
  | returned r => exact .inl ⟨r, rfl⟩
  | lock r v => exact .inr ⟨r, v, rfl, Nat.le_of_not_lt (of_decide_eq_false h)⟩
  | _ => cases h.symm

theorem Stuck.callStep (h : Stuck w) (c : Caller) :
    ∃ r, CcPanes.callStep w.shared.gate (w.pc c) = (w.shared.gate, returned r) := by
  rcases decided_cases (h.decided c) with ⟨r, hp⟩ | ⟨r, v, hp, hv⟩
  · exact ⟨r, by rw [hp]; rfl⟩
  refine ⟨r, ?_⟩
  rw [hp]
  show (w.shared.gate.parkSection v, returned r) = (w.shared.gate, returned r)
  unfold parkSection
  rw [if_pos h.parked, if_neg (Nat.not_lt.mpr hv)]

theorem Stuck.advance (h : Stuck w) (c : Caller) :
    Stuck (flowStep w (.advance c)) ∧ ((flowStep w (.advance c)).pc c).inProgress = false := by
  obtain ⟨r, hr⟩ := h.callStep c
  have hg : (flowStep w (.advance c)).shared.gate = w.shared.gate := congrArg Prod.fst hr
  have hself : (flowStep w (.advance c)).pc c = returned r :=
    (stepThread_self w c flowNext).trans (congrArg Prod.snd hr)
  refine ⟨⟨?_, ?_, ?_⟩, ?_⟩
  · rw [hg]
    exact h.parked
  · rw [hg]
    exact h.low
  · intro c'
    by_cases hc : c' = c
    · rw [hc, hself]
      rfl
    · have hother : (flowStep w (.advance c)).pc c' = w.pc c' := stepThread_other w c flowNext hc
      rw [hother]
      exact h.decided c'
  · rw [hself]
    rfl

theorem Stuck.drain (h : Stuck w) (cs : List Caller)
    (hcs : ∀ c, (w.pc c).inProgress = true → c ∈ cs) :
    ¬ NoStalePark (Run.run flowStep w (cs.map .advance)) := by
  induction cs generalizing w with
  | nil =>
    intro hno
    have hidle : ∀ c, (w.pc c).inProgress = false := by
      intro c
      rw [← not_eq_true]
      exact fun hc => nomatch (hcs c hc)
    exact absurd h.low (Nat.not_lt.mpr (hno hidle h.parked))
  | cons c cs ih =>
    obtain ⟨hstuck, hdone⟩ := h.advance c
    refine ih hstuck ?_
    intro c' hc'
    have hne : c' ≠ c := by
      rintro rfl
      rw [hdone] at hc'
      cases hc'
    have hother : (flowStep w (.advance c)).pc c' = w.pc c' := stepThread_other w c flowNext hne
    rw [hother] at hc'
    exact (mem_cons.mp (hcs c' hc')).resolve_left hne

def FiniteCalls (w : FlowWorld) : Prop :=
  ∃ cs : List Caller, ∀ c, (w.pc c).inProgress = true → c ∈ cs

theorem FiniteCalls.of_other {w w' : FlowWorld} (h : FiniteCalls w) (c : Caller)
    (hpc : ∀ c', c' ≠ c → w'.pc c' = w.pc c') : FiniteCalls w' := by
  obtain ⟨cs, hcs⟩ := h
  refine ⟨c :: cs, fun c' hc' => ?_⟩
  by_cases hc : c' = c
  · rw [hc]
    exact mem_cons_self
  · rw [hpc c' hc] at hc'
    exact mem_cons_of_mem c (hcs c' hc')

theorem finiteCalls_init (parkEnabled : Bool) (failsafe : Nat) :
    FiniteCalls (flowInit parkEnabled failsafe) := by
  refine ⟨[], fun c hc => ?_⟩
  have hret : ((flowInit parkEnabled failsafe).pc c).inProgress = false := rfl
  cases hret.symm.trans hc

theorem FiniteCalls.startCall (h : FiniteCalls w) (c : Caller) (p : CallPc) :
    FiniteCalls (startCall w c p) := by
  unfold CcPanes.startCall
  split
  · exact h
  · exact h.of_other c fun c' hc => setPc_other w c p hc

theorem finiteCalls_step (w : FlowWorld) (a : FlowAction) (h : FiniteCalls w) :
    FiniteCalls (flowStep w a) := by
  cases a with
  | noteSent endSeq =>
    cases endSeq with
    | none => exact h.startCall .batch _
    | some => exact h.startCall .batch _
  | noteAcked n => exact h.startCall (.ipc n) _
  | advance c => exact h.of_other c fun c' hc => stepThread_other w c flowNext hc
  | reader => exact h
  | cancel => exact h
  | release => exact h

theorem stuck_of_not_stepOk {a : FlowAction} (h : ¬ StepOk w a) : Stuck (flowStep w a) := by
  cases a with
  | advance c =>
    cases hp : w.pc c with
    | lock r v =>
      simp only [StepOk, hp] at h
      have hwas : w.shared.gate.parked = false := by
        rw [← not_eq_true]
        exact fun hb => h fun hf => absurd (hb.symm.trans hf) true_eq_false.mp
      have hv : producerFlowHighWatermarkBytes < v := by
        rcases Nat.lt_or_ge producerFlowHighWatermarkBytes v with hv | hv
        · exact hv
        · exact absurd (fun _ hlt => absurd hlt (Nat.not_lt.mpr hv)) h
      have hlow : w.shared.gate.inFlight < producerFlowLowWatermarkBytes := by
        rcases Nat.lt_or_ge w.shared.gate.inFlight producerFlowLowWatermarkBytes with hl | hl
        · exact hl
        · exact absurd (fun _ _ => .inl hl) h
      have hnone : ∀ c', c' ≠ c → (w.pc c').undecided = false := by
        intro c' hne
        rw [← not_eq_true]
        exact fun hu => h fun _ _ => .inr ⟨c', hne, hu⟩
      have hg : (flowStep w (.advance c)).shared.gate = w.shared.gate.parkSection v := by
        show (callStep w.shared.gate (w.pc c)).1 = _
        rw [hp]
        rfl
      refine ⟨?_, ?_, ?_⟩
      · rw [hg, parkSection_parked]
        exact .inr ⟨hwas, hv⟩
      · rw [hg, parkSection_inFlight]
        exact hlow
      intro c'
      by_cases hc : c' = c
      · have hself : (flowStep w (.advance c)).pc c = (callStep w.shared.gate (w.pc c)).2 :=
          stepThread_self w c flowNext
        rw [hc, hself, hp]
        rfl
      have hother : (flowStep w (.advance c)).pc c' = w.pc c' :=
        stepThread_other w c flowNext hc
      rw [hother]
      exact hnone c' hc
    | _ =>
      simp only [StepOk, hp] at h
      exact absurd trivial h
  | _ => exact absurd trivial h

def flowAfter (parkEnabled : Bool) (failsafe : Nat) (as : List FlowAction) : FlowWorld :=
  Run.run flowStep (flowInit parkEnabled failsafe) as

theorem finiteCalls_flowAfter (parkEnabled : Bool) (failsafe : Nat) (as : List FlowAction) :
    FiniteCalls (flowAfter parkEnabled failsafe as) :=
  Run.run_inv (I := FiniteCalls) finiteCalls_step (finiteCalls_init parkEnabled failsafe) as

theorem inCharge_init (parkEnabled : Bool) (failsafe : Nat) :
    InCharge (flowInit parkEnabled failsafe) := nofun

/-- **When no park is stale.**  A run whose steps are all ok never has the gate parked, with no
call in progress, on a level below the low mark.  After any run, a step that is not ok can be
followed by steps that end all calls and leave the gate so. -/
theorem noStalePark_run (parkEnabled : Bool) (failsafe : Nat) (as : List FlowAction) :
    (Run.StepsOk flowStep StepOk (flowInit parkEnabled failsafe) as →
      Run.Along flowStep NoStalePark (flowInit parkEnabled failsafe) as) ∧
    (∀ a, ¬ StepOk (flowAfter parkEnabled failsafe as) a →
      ∃ more, ¬ NoStalePark (flowAfter parkEnabled failsafe (as ++ a :: more))) := by
  constructor
  · intro hok
    have hstep : ∀ w a, FlowInv w ∧ InCharge w → StepOk w a →
        FlowInv (flowStep w a) ∧ InCharge (flowStep w a) :=
      fun w a h ha => ⟨flowInv_step w a h.1, inCharge_step h.1 h.2 a ha⟩
    have halong := Run.along_of_inv hstep
      ⟨flowInv_init parkEnabled failsafe, inCharge_init parkEnabled failsafe⟩ hok
    exact halong.mono fun w h => h.2.noStalePark
  · intro a ha
    obtain ⟨cs, hcs⟩ :=
      finiteCalls_step _ a (finiteCalls_flowAfter parkEnabled failsafe as)
    refine ⟨cs.map .advance, ?_⟩
    unfold flowAfter
    rw [Run.run_append, Run.run_cons]
    exact (stuck_of_not_stepOk ha).drain cs hcs

/-- the batch thread reads the level and is overtaken by an acknowledgement of everything -/
def overtakenSchedule : List FlowAction :=
  let sentAll := producerFlowHighWatermarkBytes + 2
  [.noteSent (some 1)] ++ replicate 5 (.advance .batch) ++
  [.noteAcked 0 1 0] ++ replicate 8 (.advance (.ipc 0)) ++
  [.noteSent (some sentAll)] ++ replicate 4 (.advance .batch) ++
  [.noteAcked 0 sentAll 0] ++ replicate 8 (.advance (.ipc 0)) ++
  [.advance .batch]

theorem overtakenSchedule_stalePark :
    ¬ NoStalePark
      (flowAfter producerFlowControlEnabled producerPauseFailsafe overtakenSchedule) := by
  intro hno
  have hidle : ∀ c, ((flowAfter producerFlowControlEnabled producerPauseFailsafe
      overtakenSchedule).pc c).inProgress = false := by
    intro c
    cases c with
    | batch => rfl
    | ipc n =>
      cases n with
      | zero => rfl
      | succ => rfl
  exact absurd (hno hidle (by decide)) (by decide)

end CcPanes

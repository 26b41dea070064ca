import CcPanes.View.WriteFlowInvariant
import Mathlib.Logic.Relation

/-!
# Disposing of the flow control
-/

namespace CcPanes.WriteFlow
open Run State List

/-- `written` is what has been passed to `write`, call by call -/
structure Sound (o : Settings) (written : List JsString) (s : State) : Prop where
  /-- the data reaches the terminal in the order of the calls, each at most once -/
  order : (s.calls.map (·.entry.promise)).Pairwise (· < ·)
  data : ∀ call ∈ s.calls, written[call.entry.promise]? = some call.entry.data
  /-- a promise is settled once -/
  once : (s.settled.map Prod.fst).Nodup
  /-- a promise that is resolved is one whose data has been handed to the terminal -/
  handed : ∀ p ∈ s.settled, p.2 = .rejected ∨ ∃ call ∈ s.calls, call.entry.promise = p.1
  queuedChars : s.queuedChars = (s.queue.map fun entry => (entry.data.length : Int)).sum
  inFlightChars : s.inFlightChars = ((s.calls.filter (!·.callbackCompleted)).map
    fun call => (call.entry.data.length : Int)).sum
  /-- the pump is not blocked while few callbacks are outstanding -/
  unblocked : s.pendingCallbacks ≤ o.lowWatermark → s.blocked = false

theorem Inv.sound {o : Settings} {written : List JsString} {s : State}
    (h : Inv o written [] s) : Sound o written s := { h with
  order := by
    have horder := h.order
    rw [line, map_append, pairwise_append, map_map] at horder
    exact horder.1
  data call hmem :=
    h.data call.entry (mem_append_left _ (mem_map_of_mem hmem))
  inFlightChars := by
    rw [h.inFlightChars, chars, inFlight, map_map]
    rfl
  unblocked := by
    intro hlow
    refine Bool.eq_false_iff.mpr fun hb => ?_
    have hhigh := h.blocked hb
    omega }

/-! ## after the disposal -/

def NothingInFlight (s : State) : Prop := ∀ call ∈ s.calls, call.callbackCompleted = true

instance (s : State) : Decidable (NothingInFlight s) :=
  inferInstanceAs (Decidable (∀ call ∈ s.calls, _))

def Quiet (s : State) : Event → Prop
  | .complete _ => False
  | .throws => ∀ index, s.stack.head? ≠ some (.targetWrite index)
  | _ => True

structure Advances (s t : State) : Prop where
  count : s.writeCalls ≤ t.writeCalls
  opens : ∀ i ∈ openList t, i ∈ openList s ∨ s.writeCalls ≤ i

theorem Advances.refl (s : State) : Advances s s := ⟨Nat.le_refl _, fun _ hi => .inl hi⟩

theorem Advances.trans {s t u : State} (h : Advances s t) (h' : Advances t u) : Advances s u where
  count := Nat.le_trans h.count h'.count
  opens := by
    intro i hi
    rcases h'.opens i hi with hi | hi
    · exact h.opens i hi
    · exact .inr (Nat.le_trans h.count hi)

/-! ### what a step is made of -/

/-- the parts of a step, by what they do to the writes; the terminal calls back or throws only if
`landing` -/
inductive Move (o : Settings) (landing : Prop) : State → State → Prop
  | aside {s t : State} : t.queue = s.queue → t.calls = s.calls → t.writeCalls = s.writeCalls →
      Move o landing s t
  | take {s : State} {entry : PendingWrite} {rest : List PendingWrite} :
      s.queue = entry :: rest → Move o landing s (take o s entry rest)
  | land {s : State} {index : Nat} {call : WriteCall} : landing → s.calls[index]? = some call →
      call.callbackCompleted = false → Move o landing s (s.land index call)
  | enqueue {s t : State} {entry : PendingWrite} : entry.promise = s.writeCalls →
      t.queue = s.queue ++ [entry] → t.calls = s.calls → t.writeCalls = s.writeCalls + 1 →
      Move o landing s t
  | clear {s t : State} : t.queue = [] → t.calls = s.calls → t.writeCalls = s.writeCalls →
      Move o landing s t

abbrev Moves (o : Settings) (landing : Prop) : State → State → Prop :=
  Relation.ReflTransGen (Move o landing)

section
variable {o : Settings} {landing : Prop} {s : State}

theorem moves_aside {t : State} (hqueue : t.queue = s.queue) (hcalls : t.calls = s.calls)
    (hcount : t.writeCalls = s.writeCalls) : Moves o landing s t :=
  .single (.aside hqueue hcalls hcount)

theorem moves_from {t u : State} (h : Moves o landing t u) (hqueue : t.queue = s.queue)
    (hcalls : t.calls = s.calls) (hcount : t.writeCalls = s.writeCalls) : Moves o landing s u :=
  (moves_aside hqueue hcalls hcount).trans h

theorem moves_finish : Moves o landing s (finish o s) := by
  unfold finish
  dsimp only
  split
  · exact moves_aside rfl rfl rfl
  next hq =>
  split
  · exact moves_aside rfl rfl rfl
  · exact moves_from (.single (.take hq)) rfl rfl rfl

theorem moves_loop : Moves o landing s (loop o s) := by
  unfold loop
  split
  · exact moves_finish
  next hq =>
  split
  · exact moves_finish
  · exact .single (.take hq)

theorem moves_pump : Moves o landing s (pump o s) := by
  unfold pump
  split
  · exact .refl
  · exact moves_from moves_loop rfl rfl rfl

theorem moves_settle (promise : Nat) (settlement : Settlement) :
    Moves o landing s (s.settle promise settlement) := by
  obtain ⟨settled, hs⟩ := settle_other (s := s) promise settlement
  rw [hs]
  exact moves_aside rfl rfl rfl

theorem moves_complete (h : landing) (index : Nat) : Moves o landing s (complete o s index) := by
  unfold complete
  split
  · exact .refl
  next call hcall =>
  by_cases hdone : call.callbackCompleted = true
  · rw [if_pos hdone]
  rw [if_neg hdone]
  have hland : Moves o landing s (s.land index call) :=
    .single (.land h hcall (by simpa using hdone))
  have hrelease : Moves o landing s (if call.shouldTrackCallback then (s.land index call).release o
      else s.land index call) := by
    split
    · exact hland.trans (moves_aside rfl rfl rfl)
    · exact hland
  dsimp only
  generalize (if call.shouldTrackCallback = true then _ else _) = t at hrelease ⊢
  split
  · exact hrelease.trans (moves_aside rfl rfl rfl)
  · exact (hrelease.trans (moves_settle _ _)).trans moves_pump

theorem moves_failed (h : landing) (index : Nat) : Moves o landing s (failed o s index) := by
  unfold failed
  split
  · exact .refl
  next call hcall =>
  by_cases hdone : call.callbackCompleted = true
  · rw [if_pos hdone]
    exact moves_settle _ _
  rw [if_neg hdone]
  have hland : Moves o landing s (s.land index call) :=
    .single (.land h hcall (by simpa using hdone))
  dsimp only
  split
  · exact hland.trans (moves_from (moves_settle _ _) rfl rfl rfl)
  · exact hland.trans (moves_from (moves_settle _ _) rfl rfl rfl)

theorem moves_settleAll (entries : List PendingWrite) :
    Moves o landing s
      (entries.foldl (fun s entry => s.settle entry.promise .rejected) s) := by
  induction entries generalizing s with
  | nil => exact .refl
  | cons entry entries ih => exact (moves_settle entry.promise .rejected).trans ih

theorem moves_step (e : Event) (h : landing ∨ Quiet s e) : Moves o landing s (step o s e) := by
  cases e with
  | write data onWritten =>
    refine Relation.ReflTransGen.head ?_ moves_pump
    exact .enqueue (show (PendingWrite.mk s.writeCalls data onWritten).promise = _ from rfl)
      rfl rfl rfl
  | complete call => exact moves_complete (h.resolve_right id) call
  | reset => exact moves_from moves_pump rfl rfl rfl
  | dispose =>
    refine Relation.ReflTransGen.head ?_ (moves_settleAll s.queue)
    exact .clear rfl rfl rfl
  | returns =>
    unfold step
    dsimp only
    split
    · exact .refl
    · exact moves_from moves_loop rfl rfl rfl
    · exact moves_from ((moves_settle _ _).trans moves_pump) rfl rfl rfl
  | throws =>
    unfold step
    dsimp only
    split
    · exact .refl
    · next index stack hstack =>
      have hlanding : landing := h.resolve_right fun hq => hq index (by rw [hstack]; rfl)
      exact moves_from ((moves_failed hlanding _).trans moves_loop) rfl rfl rfl
    · exact moves_from ((moves_settle _ _).trans moves_pump) rfl rfl rfl

theorem moves_run {es : List Event}
    (h : StepsOk (step o) (fun s e => landing ∨ Quiet s e) s es) :
    Moves o landing s (run (step o) s es) := by
  induction es generalizing s with
  | nil => exact .refl
  | cons e es ih => exact (moves_step e h.1).trans (ih h.2)

theorem inFlight_eq {t : State} (hcalls : t.calls = s.calls) : inFlight t = inFlight s := by
  rw [inFlight, inFlight, hcalls]

theorem Move.advances {t : State} (h : Move o landing s t) : Advances s t := by
  cases h with
  | aside hqueue hcalls hcount =>
    refine ⟨Nat.le_of_eq hcount.symm, fun i hi => .inl ?_⟩
    rw [openList, inFlight_eq hcalls, hqueue] at hi
    exact hi
  | take hq =>
    refine ⟨Nat.le_refl _, fun i hi => .inl ?_⟩
    rw [openList_take hq] at hi
    exact hi
  | land _ hcall hflying =>
    refine ⟨Nat.le_refl _, fun i hi => .inl ?_⟩
    rw [(openList_land hcall hflying).mem_iff]
    exact mem_cons_of_mem _ hi
  | @enqueue _ entry hpromise hqueue hcalls =>
    refine ⟨by omega, fun i hi => ?_⟩
    rw [openList, inFlight_eq hcalls, hqueue, ← append_assoc, map_append, mem_append] at hi
    refine hi.imp_right fun hnew => ?_
    rw [map_singleton, mem_singleton, hpromise] at hnew
    omega
  | clear hqueue hcalls hcount =>
    refine ⟨Nat.le_of_eq hcount.symm, fun i hi => .inl ?_⟩
    rw [openList, inFlight_eq hcalls, hqueue, append_nil] at hi
    rw [openList, map_append, mem_append]
    exact .inl hi

theorem Moves.advances {t : State} (h : Moves o landing s t) : Advances s t := by
  induction h with
  | refl => exact Advances.refl s
  | tail _ hmove ih => exact ih.trans hmove.advances

theorem Moves.calls {t : State} (h : Moves o False s t) : s.calls <+: t.calls := by
  induction h with
  | refl => exact prefix_rfl
  | tail _ hmove ih =>
    refine ih.trans ?_
    cases hmove with
    | aside _ hcalls => exact hcalls ▸ prefix_rfl
    | take => exact prefix_append _ _
    | land hfalse => exact hfalse.elim
    | enqueue _ _ hcalls => exact hcalls ▸ prefix_rfl
    | clear _ hcalls => exact hcalls ▸ prefix_rfl

end

/-! ### what is left unsettled -/

theorem mem_inFlight {s : State} {call : WriteCall} (hmem : call ∈ s.calls)
    (hflying : call.callbackCompleted = false) : call.entry.promise ∈ openList s := by
  rw [openList, map_append, mem_append]
  refine .inl (mem_map_of_mem (mem_map_of_mem (mem_filter.mpr ⟨hmem, ?_⟩)))
  rw [hflying]
  rfl

theorem openList_dispose {s : State} (h : NothingInFlight s) : openList (dispose s) = [] := by
  have hfold : ∀ (entries : List PendingWrite) (t : State),
      openList (entries.foldl (fun t entry => t.settle entry.promise .rejected) t) =
        openList t := by
    intro entries
    induction entries with
    | nil => exact fun t => rfl
    | cons entry entries ih =>
      intro t
      obtain ⟨settled, hs⟩ := settle_other (s := t) entry.promise .rejected
      rw [foldl_cons, ih, hs]
      rfl
  have hnone : s.calls.filter (!·.callbackCompleted) = [] := by
    refine filter_eq_nil_iff.mpr fun call hmem => ?_
    rw [h call hmem]
    decide
  rw [dispose, hfold, openList, inFlight, hnone]
  rfl

def AllSettled (n : Nat) (s : State) : Prop := ∀ i < n, s.isSettled i = true

instance (n : Nat) (s : State) : Decidable (AllSettled n s) :=
  inferInstanceAs (Decidable (∀ i < n, s.isSettled i = true))

section
variable (o : Settings) (before after : List Event)

theorem settled_after_dispose
    (hidle : (run (step o) createTerminalWriteFlowControl (before ++ .dispose :: after)).stack = [])
    (hnothing : NothingInFlight (run (step o) createTerminalWriteFlowControl before)) :
    AllSettled (run (step o) createTerminalWriteFlowControl before).writeCalls
      (run (step o) createTerminalWriteFlowControl (before ++ .dispose :: after)) := by
  intro i hi
  have hinv := inv_run o (before ++ .dispose :: after)
  rw [run_append, run_cons] at hidle hinv ⊢
  generalize run (step o) createTerminalWriteFlowControl before = s at *
  have hmoves : Moves o True s (dispose s) := moves_step .dispose (.inl trivial)
  have hmoves' : Moves o True (dispose s) (run (step o) (dispose s) after) :=
    moves_run (stepsOk_iff.mpr fun _ _ _ _ => .inl trivial)
  have hdispose := hmoves.advances
  have hafter := hmoves'.advances
  have hlt := Nat.lt_of_lt_of_le hi hdispose.count
  refine Bool.not_eq_false _ |>.mp fun hs => ?_
  rcases hinv.unsettled i (Nat.lt_of_lt_of_le hlt hafter.count) hs with ho | hw | hmem
  · rcases hafter.opens i ho with hi' | hi'
    · rw [openList_dispose hnothing] at hi'
      cases hi'
    · omega
  · obtain ⟨entry, hmem, -⟩ := hw
    have hmem : .onWritten entry ∈ (run (step o) (dispose s) after).stack := hmem
    rw [show (run (step o) (dispose s) after).stack = [] from hidle] at hmem
    cases hmem
  · cases hmem

theorem flying_stays
    (hquiet : StepsOk (step o) Quiet
      (step o (run (step o) createTerminalWriteFlowControl before) .dispose) after)
    (hall : AllSettled (run (step o) createTerminalWriteFlowControl before).writeCalls
      (run (step o) createTerminalWriteFlowControl (before ++ .dispose :: after))) :
    NothingInFlight (run (step o) createTerminalWriteFlowControl before) := by
  intro call hmem
  have hbefore := inv_run o before
  have hinv := inv_run o (before ++ .dispose :: after)
  rw [run_append] at hinv hall
  generalize run (step o) createTerminalWriteFlowControl before = s at *
  have hsteps : StepsOk (step o) (fun s e => False ∨ Quiet s e) s (.dispose :: after) :=
    ⟨.inr trivial, hquiet.mono fun _ _ hq => .inr hq⟩
  have hcalls : s.calls <+: (run (step o) s (.dispose :: after)).calls := (moves_run hsteps).calls
  have hlt : call.entry.promise < s.writeCalls := hbefore.lt_of_handed ⟨call, hmem, rfl⟩
  refine Bool.not_eq_false _ |>.mp fun hflying => ?_
  have hopen := hinv.opens _ (mem_inFlight (hcalls.subset hmem) hflying)
  rw [hall _ hlt] at hopen
  cases hopen

end

/-- **In every run the flow control is sound, and a disposal leaves every promise settled exactly if
it finds nothing in flight**: once no call is open, and where the terminal does not call back. -/
theorem flowControl_disposed_iff (options : TerminalWriteFlowControlOptions) :
    (∀ es, Sound (settings options) (es.flatMap writtenBy)
      (run (step (settings options)) createTerminalWriteFlowControl es)) ∧
    ∀ before after,
      (run (step (settings options)) createTerminalWriteFlowControl
        (before ++ .dispose :: after)).stack = [] →
      (NothingInFlight (run (step (settings options)) createTerminalWriteFlowControl before) →
        AllSettled (run (step (settings options)) createTerminalWriteFlowControl before).writeCalls
          (run (step (settings options)) createTerminalWriteFlowControl
            (before ++ .dispose :: after))) ∧
      (StepsOk (step (settings options)) Quiet (step (settings options)
            (run (step (settings options)) createTerminalWriteFlowControl before) .dispose) after →
        AllSettled (run (step (settings options)) createTerminalWriteFlowControl before).writeCalls
          (run (step (settings options)) createTerminalWriteFlowControl
            (before ++ .dispose :: after)) →
        NothingInFlight (run (step (settings options)) createTerminalWriteFlowControl before)) :=
  ⟨fun es => (inv_run _ es).sound, fun before after hidle =>
    ⟨settled_after_dispose _ before after hidle, flying_stays _ before after⟩⟩

def defaultOptions : TerminalWriteFlowControlOptions := ⟨none, none, none, none⟩

/-- the terminal calls back while it is being written to -/
theorem calledBack_settled :
    AllSettled 1 (run (step (settings defaultOptions)) createTerminalWriteFlowControl
      [.write (JsString.ofString "a") true, .complete 0, .returns, .returns, .dispose]) :=
  ((flowControl_disposed_iff defaultOptions).2
    [.write (JsString.ofString "a") true, .complete 0, .returns, .returns] [] (by decide)).1
    (by decide)

/-- the terminal has the data and does not call back -/
theorem inFlight_unsettled :
    (run (step (settings defaultOptions)) createTerminalWriteFlowControl
        [.write (JsString.ofString "a") false, .returns, .dispose]).stack = [] ∧
      ¬ AllSettled 1 (run (step (settings defaultOptions)) createTerminalWriteFlowControl
        [.write (JsString.ofString "a") false, .returns, .dispose]) := by
  decide

end CcPanes.WriteFlow

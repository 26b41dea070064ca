import CcPanes.Terminal.InputQueueOrder
import CcPanes.Terminal.InputQueueSubmits
import Mathlib.Algebra.GroupWithZero.Nat

/-!
# Runs of the input queue

A failed write rejects its whole batch, and `clearTerminalInputQueue` forgets a batch that is still
being written.
-/

namespace CcPanes.InputQueue

open State Run List

/-! ## the writes come to an end -/

namespace State

def work (s : State) : Nat :=
  2 * s.pending.length + (s.flights.map fun flight => flight.rest.length + 1).sum

end State

section
variable {s : State}

theorem work_finallyBlock (id : Nat) : (s.finallyBlock id).work = s.work := by
  unfold work
  rw [pending_finallyBlock, (finallyBlock_frame id).1]

theorem work_loop (id : Nat) (batch : List QueuedTerminalInput) (runs : List InputRun) :
    (s.loop id batch runs).work = s.work + runs.length := by
  cases runs with
  | nil => exact work_finallyBlock (s := s.settle batch .fulfilled) id
  | cons run rest =>
    show 2 * s.pending.length + (map _ (s.flights ++ [(⟨id, batch, run, rest⟩ : Flight)])).sum =
      _
    rw [map_append, sum_append, map_singleton, sum_singleton, ← Nat.add_assoc]
    rfl

theorem drains_loop (id : Nat) (batch : List QueuedTerminalInput) (runs : List InputRun) :
    (s.loop id batch runs).drains = s.drains := (loop_frame id batch runs).2.1

theorem work_flush (hq : Queues s s.flightIds) {queue : TerminalInputQueue}
    (hqueue : s.queue = some queue) (htimer : queue.timer = true) : s.flush.work < s.work := by
  have hf : queue.flushing = false := by
    refine Bool.eq_false_iff.mpr fun hf => ?_
    rw [(hq.busy queue hqueue hf).1] at htimer
    cases htimer
  have hpending := (hq.armed queue hqueue hf).2.1
  have hruns := split_length queue.pending
  have hpos := length_pos_iff.mpr hpending
  rw [flush_armed hqueue hf hpending, work_loop]
  have hopened : work
      { s with queue := some { queue with timer := false, pending := [], flushing := true } } =
      (s.flights.map fun flight => flight.rest.length + 1).sum := Nat.zero_add _
  rw [hopened]
  unfold work
  rw [pending_of_queue hqueue]
  omega

theorem work_take {index : Nat} {flight : Flight} (hf : s.flights[index]? = some flight) :
    s.work = work { s with flights := s.flights.eraseIdx index } + (flight.rest.length + 1) := by
  obtain ⟨hlt, hget⟩ := List.getElem?_eq_some_iff.mp hf
  have hperm : s.flights.Perm (flight :: s.flights.eraseIdx index) := by
    rw [← hget]
    exact (getElem_cons_eraseIdx_perm hlt).symm
  have hsum := (hperm.map fun flight : Flight => flight.rest.length + 1).sum_nat
  rw [map_cons, sum_cons] at hsum
  show 2 * s.pending.length + _ = 2 * s.pending.length +
    ((s.flights.eraseIdx index).map fun flight : Flight => flight.rest.length + 1).sum + _
  rw [hsum]
  omega

theorem own_step (hq : Queues s s.flightIds) {e : Event} (he : s.Own e) :
    Queues (step s e) (step s e).flightIds ∧ (step s e).work < s.work ∧
      (step s e).drains = s.drains := by
  cases e with
  | timerFires =>
    obtain ⟨queue, hqueue, htimer⟩ := he
    have hfires : s.timerFires = s.flush := by
      unfold State.timerFires
      rw [hqueue]
      exact if_pos htimer
    refine ⟨hq.timerFires, ?_, ?_⟩
    · show s.timerFires.work < s.work
      rw [hfires]
      exact work_flush hq hqueue htimer
    · show s.timerFires.drains = s.drains
      rw [hfires]
      exact flush_frame.2.1
  | writeDone index =>
    have hf : s.flights[index]? = some _ := getElem?_eq_getElem he
    have hdone : s.writeDone index = State.loop { s with
        flights := s.flights.eraseIdx index, written := s.written ++ [s.flights[index].run] }
        s.flights[index].queue s.flights[index].batch s.flights[index].rest := by
      unfold State.writeDone
      rw [hf]
    refine ⟨hq.writeDone index, ?_, ?_⟩
    · show (s.writeDone index).work < s.work
      rw [hdone, work_loop, work_take hf]
      exact Nat.lt_succ_self _
    · show (s.writeDone index).drains = s.drains
      rw [hdone, drains_loop]
  | writeFailed index =>
    have hf : s.flights[index]? = some _ := getElem?_eq_getElem he
    have hfailed : s.writeFailed index = State.finallyBlock (State.settle { s with
        flights := s.flights.eraseIdx index, failed := s.failed ++ [s.flights[index].run] }
        s.flights[index].batch .rejected) s.flights[index].queue := by
      unfold State.writeFailed
      rw [hf]
    refine ⟨hq.writeFailed index, ?_, ?_⟩
    · show (s.writeFailed index).work < s.work
      rw [hfailed, work_finallyBlock, work_take hf]
      exact Nat.lt_add_of_pos_right (Nat.succ_pos _)
    · show (s.writeFailed index).drains = s.drains
      rw [hfailed]
      exact (finallyBlock_frame _).2.2.2.1
  | enqueue => exact he.elim
  | drain => exact he.elim
  | clear => exact he.elim
  | submit => exact he.elim
  | submitStarts => exact he.elim

theorem own_run {es : List Event} (hq : Queues s s.flightIds) (hes : StepsOk step State.Own s es) :
    Queues (run step s es) (run step s es).flightIds ∧ es.length ≤ s.work ∧
      (run step s es).drains = s.drains := by
  induction es generalizing s with
  | nil => exact ⟨hq, Nat.zero_le _, rfl⟩
  | cons e es ih =>
    obtain ⟨hstep, hlt, hdrains⟩ := own_step hq hes.1
    obtain ⟨hrun, hle, hdrains'⟩ := ih hstep hes.2
    refine ⟨hrun, ?_, hdrains'.trans hdrains⟩
    rw [length_cons]
    omega

theorem drained_of_quiet (hq : Queues s s.flightIds) (hquiet : ∀ e, ¬ s.Own e) :
    ∀ promise < s.drains, promise ∈ s.drained := by
  have hflights : s.flights = [] := by
    refine length_eq_zero_iff.mp (Nat.eq_zero_of_not_pos fun hpos => ?_)
    exact hquiet (.writeDone 0) hpos
  intro promise hlt
  rcases hq.waiting promise hlt with hd | ⟨queue, hqueue, -⟩
  · exact hd
  cases hf : queue.flushing with
  | true =>
    have hmem := (hq.busy queue hqueue hf).2
    unfold flightIds at hmem
    rw [hflights] at hmem
    cases hmem
  | false => exact absurd ⟨queue, hqueue, (hq.armed queue hqueue hf).1⟩ (hquiet .timerFires)

end

/-! ## runs -/

/-- the batch of a write that fails has not been written in part; and no submit looks past a batch
that the entry of the session does not know -/
def Careful (s : State) : Event → Prop
  | .writeFailed index => ∀ flight ∈ s.flights[index]?,
      flight.run :: flight.rest = splitInputRunsBySource flight.batch
  | .clear => ∀ submit ∈ s.submits, submit.drain ∉ s.drained →
      ∀ flight ∈ s.flights, ∀ item ∈ flight.batch, submit.before ≤ item.promise
  | .submit => ∀ flight ∈ s.flights, s.Current flight.queue
  | _ => True

structure Good (s : State) : Prop where
  ledger : Ledger s [] []
  queues : Queues s s.flightIds
  submits : Submits s
  order : Order s s.flightIds []

theorem good_init : Good init := by
  refine ⟨ledger_init, ?_, ?_, ?_⟩
  · exact ⟨nodup_nil, by simp [init, flightIds], by simp [init], by simp [init], by simp [init],
      by simp [init], by simp [init]⟩
  · exact ⟨by simp [init], by simp [init], by simp [init], by simp [init]⟩
  · exact ⟨by simp [init, flightIds],
      fun _ => ⟨[], rfl, List.Sublist.refl _, by simp, fun _ => rfl⟩⟩

theorem Good.step {s : State} (h : Good s) {e : Event} (he : Careful s e) :
    Good (InputQueue.step s e) := by
  obtain ⟨hl, hq, hs, ho⟩ := h
  cases e with
  | enqueue data source =>
    have hids : (s.enqueue data source).flightIds = s.flightIds := by
      unfold State.enqueue
      split
      · rfl
      · dsimp only
        split <;> rfl
    exact ⟨hl.enqueue data source, hq.enqueue data source, hs.enqueue data source,
      hids ▸ ho.enqueue data source⟩
  | timerFires => exact ⟨hl.timerFires, hq.timerFires, hs.timerFires hl hq, ho.timerFires hq⟩
  | writeDone index =>
    exact ⟨hl.writeDone index, hq.writeDone index, hs.writeDone hl hq index, ho.writeDone hq index⟩
  | writeFailed index =>
    exact ⟨hl.writeFailed he, hq.writeFailed index, hs.writeFailed hl hq he,
      ho.writeFailed hl hq index⟩
  | drain => exact ⟨hl.drain, hq.drain, hs.drain hl hq, ho.drain hq⟩
  | clear => exact ⟨hl.clear, hq.clear, hs.clear hl hq he, ho.clear⟩
  | submit => exact ⟨hl.submit, hq.drain.congr, hs.submit hl hq he, ho.submit hq⟩
  | submitStarts index =>
    have hids : Queues (s.submitStarts index) (s.submitStarts index).flightIds := by
      unfold State.submitStarts
      split
      · exact hq
      · split
        · exact hq.congr
        · exact hq
    exact ⟨hl.submitStarts index, hids, hs.submitStarts index, ho.submitStarts index⟩

theorem Good.kept {s : State} (h : Good s) : Kept s := { h.ledger with
  inOrder := h.order.handedInOrder h.ledger
  data := by
    unfold handedItems
    rw [flatMap_assoc]
    rfl
  submitted submit hs hstarted :=
    h.submits.done submit hs (h.submits.started submit hs hstarted)
  drained := by
    refine ⟨s.work, fun es hes => ?_⟩
    obtain ⟨hq, hle, hdrains⟩ := own_run h.queues hes
    exact ⟨hle, fun hquiet promise hlt => drained_of_quiet hq hquiet promise (hdrains ▸ hlt)⟩ }

/-- **A run in which only first runs fail and no submit looks past a forgotten batch keeps what is
expected.** -/
theorem kept_of_careful (es : List Event) (h : StepsOk step Careful init es) :
    Along step Kept init es :=
  (along_of_inv (P := Careful) (fun _ _ (hg : Good _) he => hg.step he) good_init h).mono
    fun _ hg => hg.kept

def twoSources : List Event :=
  [.enqueue [97] .userKeyboard, .enqueue [98] .mcp, .timerFires, .submit, .writeDone 0, .writeDone 0,
    .submitStarts 0]

theorem twoSources_kept :
    Along step Kept init twoSources ∧
      (run step init twoSources).handed.map InputRun.data = [[97], [98]] ∧
      (run step init twoSources).submits = [⟨0, 2, true⟩] := by
  refine ⟨kept_of_careful twoSources ⟨trivial, trivial, trivial, ?_, trivial, trivial, trivial,
    trivial⟩, by decide, by decide⟩
  intro flight hf
  have hmem : flight.queue ∈ [0] := mem_map.mpr ⟨flight, hf, rfl⟩
  rw [mem_singleton.mp hmem]
  exact ⟨_, rfl, rfl⟩

def lateFailure : List Event :=
  [.enqueue [97] .userKeyboard, .enqueue [98] .mcp, .timerFires, .writeDone 0, .writeFailed 0]

theorem lateFailure_rejects :
    ¬ ∀ es : List Event, es.count .clear ≤ 1 → Along step Kept init es := by
  intro h
  have hkept := (h lateFailure (by decide)).last
  have hitem : (⟨0, [97], .userKeyboard⟩ : QueuedTerminalInput) ∈
      (run step init lateFailure).enqueued := by decide
  have hrejected : (run step init lateFailure).Rejected ⟨0, [97], .userKeyboard⟩ := by
    unfold Rejected
    decide
  rcases hkept.rejected _ hitem hrejected with ⟨r, hr, hi⟩ | hnot
  · have hr : r ∈ [(⟨.mcp, [⟨1, [98], .mcp⟩]⟩ : InputRun)] := hr
    rw [mem_singleton.mp hr] at hi
    revert hi
    decide
  · exact hnot (by decide)

/-- a submit behind a clear starts under the write of an earlier input -/
example : (run step init
    [.enqueue [97] .userKeyboard, .timerFires, .clear, .submit, .submitStarts 0]).submits =
      [⟨0, 1, true⟩] ∧
    (run step init
      [.enqueue [97] .userKeyboard, .timerFires, .clear, .submit, .submitStarts 0]).settled = [] := by
  decide

end CcPanes.InputQueue

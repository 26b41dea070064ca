import CcPanes.Terminal.InputQueueLedger

/-!
# The queue and the batches on their way
-/

namespace CcPanes.InputQueue

open State List Option

/-! ## the steps -/

section
variable {s : State} {queue : TerminalInputQueue}

theorem flush_none (hq : s.queue = none) : s.flush = s := by
  unfold State.flush
  rw [hq]

theorem flush_armed (hq : s.queue = some queue) (hflushing : queue.flushing = false)
    (hpending : queue.pending ≠ []) :
    s.flush = State.loop
      { s with queue := some { queue with timer := false, pending := [], flushing := true } }
      queue.id queue.pending (splitInputRunsBySource queue.pending) := by
  unfold State.flush
  rw [hq]
  dsimp only
  rw [hflushing, if_neg (by decide), if_neg hpending]

theorem flush_busy (hq : s.queue = some queue) (hflushing : queue.flushing = true) :
    s.flush = s := by
  unfold State.flush
  rw [hq]
  dsimp only
  rw [hflushing, if_pos rfl]

theorem finallyBlock_frame (id : Nat) :
    (s.finallyBlock id).flights = s.flights ∧ (s.finallyBlock id).enqueued = s.enqueued ∧
      (s.finallyBlock id).queues = s.queues ∧ (s.finallyBlock id).drains = s.drains ∧
      (s.finallyBlock id).submits = s.submits ∧ (s.finallyBlock id).settled = s.settled ∧
      (s.finallyBlock id).handed = s.handed ∧ (s.finallyBlock id).failed = s.failed ∧
      (s.finallyBlock id).clears = s.clears := by
  unfold State.finallyBlock
  split
  · exact ⟨rfl, rfl, rfl, rfl, rfl, rfl, rfl, rfl, rfl⟩
  · split_ifs <;> exact ⟨rfl, rfl, rfl, rfl, rfl, rfl, rfl, rfl, rfl⟩

theorem loop_frame (id : Nat) (batch : List QueuedTerminalInput) (runs : List InputRun) :
    (s.loop id batch runs).enqueued = s.enqueued ∧ (s.loop id batch runs).drains = s.drains ∧
      (s.loop id batch runs).submits = s.submits := by
  cases runs with
  | nil =>
    obtain ⟨-, henqueued, -, hdrains, hsubmits, -⟩ :=
      finallyBlock_frame (s := s.settle batch .fulfilled) id
    exact ⟨henqueued, hdrains, hsubmits⟩
  | cons => exact ⟨rfl, rfl, rfl⟩

theorem flush_frame : s.flush.enqueued = s.enqueued ∧ s.flush.drains = s.drains ∧
    s.flush.submits = s.submits := by
  unfold State.flush
  split
  · exact ⟨rfl, rfl, rfl⟩
  split_ifs
  · exact ⟨rfl, rfl, rfl⟩
  · exact ⟨rfl, rfl, rfl⟩
  · exact loop_frame _ _ _

theorem finallyBlock_cases (id : Nat) :
    (s.finallyBlock id = s ∧ ∀ queue, s.queue = some queue → queue.id ≠ id) ∨
      ∃ queue, s.queue = some queue ∧ queue.id = id ∧
        (queue.pending ≠ [] ∧
            s.finallyBlock id = { s with queue := some { queue with flushing := false, timer := true } } ∨
          queue.pending = [] ∧
            s.finallyBlock id = { s with queue := none, drained := s.drained ++ queue.idleResolvers }) := by
  unfold State.finallyBlock
  cases hq : s.queue with
  | none => exact .inl ⟨rfl, nofun⟩
  | some queue =>
    dsimp only
    by_cases hid : queue.id = id
    · rw [if_neg (not_not.mpr hid)]
      refine .inr ⟨queue, rfl, hid, ?_⟩
      by_cases hpending : queue.pending = []
      · rw [if_neg (not_not.mpr hpending)]
        exact .inr ⟨hpending, rfl⟩
      · rw [if_pos hpending]
        exact .inl ⟨hpending, rfl⟩
    · rw [if_pos hid]
      refine .inl ⟨rfl, fun q h => ?_⟩
      cases h
      exact hid

end

theorem pending_finallyBlock {s : State} (id : Nat) : (s.finallyBlock id).pending = s.pending := by
  rcases finallyBlock_cases (s := s) id with
    ⟨heq, -⟩ | ⟨queue, hqueue, -, ⟨-, heq⟩ | ⟨hpending, heq⟩⟩
  · rw [heq]
  · rw [heq, pending_of_queue hqueue]
    rfl
  · rw [heq, pending_of_queue hqueue, hpending]
    rfl

/-! ## the queue and the batches on their way -/

namespace State

def flightIds (s : State) : List Nat := s.flights.map Flight.queue

def Current (s : State) (id : Nat) : Prop := ∃ queue, s.queue = some queue ∧ queue.id = id

def await (s : State) (queue : TerminalInputQueue) : State :=
  { s with
    drains := s.drains + 1
    queue := some { queue with idleResolvers := queue.idleResolvers ++ [s.drains] } }

end State

structure Queues (s : State) (ids : List Nat) : Prop where
  distinct : ids.Nodup
  idKnown : ∀ id ∈ ids, id < s.queues
  queueKnown : ∀ queue, s.queue = some queue → queue.id < s.queues
  busy : ∀ queue, s.queue = some queue → queue.flushing = true →
    queue.timer = false ∧ queue.id ∈ ids
  armed : ∀ queue, s.queue = some queue → queue.flushing = false →
    queue.timer = true ∧ queue.pending ≠ [] ∧ queue.id ∉ ids
  waiting : ∀ d < s.drains, d ∈ s.drained ∨ ∃ queue, s.queue = some queue ∧ d ∈ queue.idleResolvers
  drainKnown : ∀ d, d ∈ s.drained ∨ (∃ queue, s.queue = some queue ∧ d ∈ queue.idleResolvers) →
    d < s.drains

namespace Queues
variable {s : State} {ids : List Nat} {queue : TerminalInputQueue} {ids' : List Nat}

theorem perm (h : Queues s ids) (hp : ids.Perm ids') : Queues s ids' := { h with
  distinct := hp.nodup_iff.mp h.distinct
  idKnown id hid := h.idKnown id (hp.mem_iff.mpr hid)
  busy queue hq hf := (h.busy queue hq hf).imp_right hp.mem_iff.mp
  armed queue hq hf := by
    obtain ⟨htimer, hpending, hnot⟩ := h.armed queue hq hf
    exact ⟨htimer, hpending, fun hmem => hnot (hp.mem_iff.mpr hmem)⟩ }

theorem congr (h : Queues s ids) {enqueued cleared : List QueuedTerminalInput}
    {flights : List Flight} {handed written failed : List InputRun}
    {settled : List (Nat × Settlement)} {clears : Nat} {submits : List Submit} :
    Queues { s with
      enqueued := enqueued, flights := flights, handed := handed, written := written,
      failed := failed, settled := settled, cleared := cleared, clears := clears,
      submits := submits } ids :=
  ⟨h.distinct, h.idKnown, h.queueKnown, h.busy, h.armed, h.waiting, h.drainKnown⟩

theorem replace (h : Queues s ids) {queue queue' : TerminalInputQueue}
    (hq : s.queue = some queue) (hid : queue'.id = queue.id)
    (hidle : queue'.idleResolvers = queue.idleResolvers)
    (hdistinct : ids'.Nodup) (hknown : ∀ id ∈ ids', id < s.queues)
    (hbusy : queue'.flushing = true → queue'.timer = false ∧ queue'.id ∈ ids')
    (harmed : queue'.flushing = false →
      queue'.timer = true ∧ queue'.pending ≠ [] ∧ queue'.id ∉ ids') :
    Queues { s with queue := some queue' } ids' := by
  refine ⟨hdistinct, hknown, fun q hq' => ?_, fun q hq' => ?_, fun q hq' => ?_, fun d hd => ?_,
    fun d hd => ?_⟩
  · cases hq'
    rw [hid]
    exact h.queueKnown queue hq
  · cases hq'
    exact hbusy
  · cases hq'
    exact harmed
  · refine (h.waiting d hd).imp_right ?_
    rintro ⟨q, hq', hd⟩
    cases hq.symm.trans hq'
    exact ⟨queue', rfl, hidle ▸ hd⟩
  · refine h.drainKnown d (hd.imp_right ?_)
    rintro ⟨q, hq', hd⟩
    cases hq'
    exact ⟨queue, hq, hidle ▸ hd⟩

theorem release (h : Queues s ids) (hq : s.queue = some queue) (hdistinct : ids'.Nodup)
    (hknown : ∀ id ∈ ids', id < s.queues) :
    Queues { s with queue := none, drained := s.drained ++ queue.idleResolvers } ids' := by
  refine ⟨hdistinct, hknown, nofun, nofun, nofun, fun d hd => ?_, fun d hd => ?_⟩
  · rcases h.waiting d hd with hd | ⟨q, hq', hd⟩
    · exact .inl (mem_append_left _ hd)
    · cases hq.symm.trans hq'
      exact .inl (mem_append_right _ hd)
  rcases hd with hd | ⟨q, hq', -⟩
  · rcases mem_append.mp hd with hd | hd
    · exact h.drainKnown d (.inl hd)
    · exact h.drainKnown d (.inr ⟨queue, hq, hd⟩)
  · cases hq'

theorem finallyBlock {id : Nat} (h : Queues s (id :: ids)) : Queues (s.finallyBlock id) ids := by
  obtain ⟨hnot, hdistinct⟩ := nodup_cons.mp h.distinct
  have hknown : ∀ i ∈ ids, i < s.queues := fun i hi => h.idKnown i (mem_cons_of_mem _ hi)
  rcases finallyBlock_cases (s := s) id with
    ⟨heq, hother⟩ | ⟨queue, hq, hid, ⟨hpending, heq⟩ | ⟨-, heq⟩⟩
  · rw [heq]
    refine ⟨hdistinct, hknown, h.queueKnown, fun q hq hf => ?_, fun q hq hf => ?_, h.waiting,
      h.drainKnown⟩
    · obtain ⟨htimer, hmem⟩ := h.busy q hq hf
      exact ⟨htimer, (mem_cons.mp hmem).resolve_left (hother q hq)⟩
    · obtain ⟨htimer, hpending, hmem⟩ := h.armed q hq hf
      exact ⟨htimer, hpending, fun hi => hmem (mem_cons_of_mem _ hi)⟩
  · rw [heq]
    exact h.replace hq rfl rfl hdistinct hknown nofun fun _ => ⟨rfl, hpending, hid ▸ hnot⟩
  · rw [heq]
    exact h.release hq hdistinct hknown

theorem loop {id : Nat} (h : Queues s (id :: s.flightIds)) (batch : List QueuedTerminalInput)
    (runs : List InputRun) : Queues (s.loop id batch runs) (s.loop id batch runs).flightIds := by
  cases runs with
  | nil =>
    have hids : (State.finallyBlock (s.settle batch .fulfilled) id).flightIds = s.flightIds :=
      congrArg (map Flight.queue) (finallyBlock_frame id).1
    show Queues (State.finallyBlock (s.settle batch .fulfilled) id) _
    unfold State.loop
    rw [hids]
    have hsettled : Queues (s.settle batch .fulfilled) (id :: s.flightIds) := h.congr
    exact hsettled.finallyBlock
  | cons run rest =>
    have hids : (s.loop id batch (run :: rest)).flightIds = s.flightIds ++ [id] :=
      map_append
    rw [hids]
    exact (h.perm (perm_append_singleton id s.flightIds).symm).congr

section
variable (h : Queues s s.flightIds)
include h

theorem opened (hq : s.queue = some queue) (hf : queue.flushing = false) :
    Queues { s with queue := some { queue with timer := false, pending := [], flushing := true } }
      (queue.id :: s.flightIds) := by
  obtain ⟨-, -, hnot⟩ := h.armed queue hq hf
  exact h.replace hq rfl rfl (nodup_cons.mpr ⟨hnot, h.distinct⟩)
    (forall_mem_cons.mpr ⟨h.queueKnown queue hq, h.idKnown⟩)
    (fun _ => ⟨rfl, mem_cons_self⟩) nofun

theorem flush : Queues s.flush s.flush.flightIds := by
  cases hq : s.queue with
  | none =>
    rw [flush_none hq]
    exact h
  | some queue =>
    cases hf : queue.flushing with
    | true =>
      rw [flush_busy hq hf]
      exact h
    | false =>
      rw [flush_armed hq hf (h.armed queue hq hf).2.1]
      exact (h.opened hq hf).loop _ _

theorem take {index : Nat} {flight : Flight} (hf : s.flights[index]? = some flight) :
    Queues { s with flights := s.flights.eraseIdx index }
      (flight.queue :: State.flightIds { s with flights := s.flights.eraseIdx index }) := by
  obtain ⟨hlt, hget⟩ := List.getElem?_eq_some_iff.mp hf
  have hperm : (flight :: s.flights.eraseIdx index).Perm s.flights := by
    rw [← hget]
    exact getElem_cons_eraseIdx_perm hlt
  exact (h.perm (hperm.map Flight.queue).symm).congr

theorem await (hq : s.queue = some queue) :
    Queues (s.await queue) (s.await queue).flightIds := by
  refine ⟨h.distinct, h.idKnown, fun q hq' => ?_, fun q hq' hf => ?_, fun q hq' hf => ?_,
    fun d hd => ?_, fun d hd => ?_⟩
  · cases hq'
    exact h.queueKnown queue hq
  · cases hq'
    exact h.busy queue hq hf
  · cases hq'
    exact h.armed queue hq hf
  · have hd : d < s.drains + 1 := hd
    rcases Nat.lt_succ_iff_lt_or_eq.mp hd with hd | rfl
    · refine (h.waiting d hd).imp_right ?_
      rintro ⟨q, hq', hd⟩
      cases hq.symm.trans hq'
      exact ⟨_, rfl, mem_append_left _ hd⟩
    · exact .inr ⟨_, rfl, mem_append_right _ mem_cons_self⟩
  · show d < s.drains + 1
    rcases hd with hd | ⟨q, hq', hd⟩
    · exact Nat.lt_succ_of_lt (h.drainKnown d (.inl hd))
    cases hq'
    rcases mem_append.mp hd with hd | hd
    · exact Nat.lt_succ_of_lt (h.drainKnown d (.inr ⟨queue, hq, hd⟩))
    · rw [mem_singleton.mp hd]
      exact Nat.lt_succ_self _

theorem writeDone (index : Nat) :
    Queues (s.writeDone index) (s.writeDone index).flightIds := by
  unfold State.writeDone
  split
  · exact h
  next flight hf =>
  have hwrote : Queues { s with
      flights := s.flights.eraseIdx index, written := s.written ++ [flight.run] }
      (flight.queue :: State.flightIds { s with flights := s.flights.eraseIdx index }) :=
    (h.take hf).congr
  exact hwrote.loop flight.batch flight.rest

theorem writeFailed (index : Nat) :
    Queues (s.writeFailed index) (s.writeFailed index).flightIds := by
  unfold State.writeFailed
  split
  · exact h
  next flight hf =>
  have hsettled : Queues (State.settle { s with
      flights := s.flights.eraseIdx index, failed := s.failed ++ [flight.run] }
      flight.batch .rejected)
      (flight.queue :: State.flightIds { s with flights := s.flights.eraseIdx index }) :=
    (h.take hf).congr
  have hids := congrArg (map Flight.queue) (finallyBlock_frame (s := State.settle { s with
      flights := s.flights.eraseIdx index, failed := s.failed ++ [flight.run] }
      flight.batch .rejected) flight.queue).1
  unfold flightIds
  rw [hids]
  exact hsettled.finallyBlock

theorem clear : Queues s.clear s.clear.flightIds := by
  unfold State.clear
  split
  · exact h
  · next queue hq => exact (h.release hq h.distinct h.idKnown).congr

theorem enqueue (data : JsString) (source : TerminalWriteSource) :
    Queues (s.enqueue data source) (s.enqueue data source).flightIds := by
  unfold State.enqueue
  split
  · exact h
  dsimp only
  split
  · next queue hq =>
    suffices hqueue : ∀ item : QueuedTerminalInput, Queues { s with
        queue := some { queue with
          pending := queue.pending ++ [item]
          timer := if !queue.timer && !queue.flushing then true else queue.timer } }
        s.flightIds from (hqueue _).congr
    refine fun item => h.replace hq rfl rfl h.distinct h.idKnown (fun hf => ?_) fun hf => ?_
    · have hf : queue.flushing = true := hf
      obtain ⟨htimer, hmem⟩ := h.busy queue hq hf
      refine ⟨?_, hmem⟩
      show (if _ then _ else _) = false
      rw [hf, htimer]
      rfl
    · obtain ⟨htimer, -, hnot⟩ := h.armed queue hq hf
      refine ⟨?_, by simp, hnot⟩
      show (if _ then _ else _) = true
      rw [htimer]
      rfl
  next hq =>
  refine ⟨h.distinct, fun id hid => Nat.lt_succ_of_lt (h.idKnown id hid), fun q hq' => ?_,
    fun q hq' hf => ?_, fun q hq' _ => ?_, fun d hd => ?_, fun d hd => h.drainKnown d ?_⟩
  · cases hq'
    exact Nat.lt_succ_self _
  · cases hq'
    cases hf
  · cases hq'
    exact ⟨rfl, cons_ne_nil _ _, fun hmem => absurd (h.idKnown _ hmem) (Nat.lt_irrefl _)⟩
  · rcases h.waiting d hd with hd | ⟨q, hq', -⟩
    · exact .inl hd
    · rw [hq] at hq'
      cases hq'
  · rcases hd with hd | ⟨q, hq', hd⟩
    · exact .inl hd
    · cases hq'
      cases hd

theorem drain_cases :
    (s.queue = none ∧
        s.drain = { s with drains := s.drains + 1, drained := s.drained ++ [s.drains] }) ∨
      ∃ t queue, (t = s ∨ t = s.flush) ∧ t.queue = some queue ∧ queue.flushing = true ∧
        s.drain = t.await queue := by
  cases hq : s.queue with
  | none =>
    left
    refine ⟨rfl, ?_⟩
    unfold State.drain
    dsimp only
    rw [hq]
  | some queue =>
    right
    cases hf : queue.flushing with
    | true =>
      have htimer := (h.busy queue hq hf).1
      refine ⟨s, queue, .inl rfl, hq, hf, ?_⟩
      unfold State.drain State.await
      dsimp only
      rw [hq]
      dsimp only
      rw [htimer, if_neg (by decide)]
      simp [hf, htimer]
    | false =>
      obtain ⟨htimer, hpending, -⟩ := h.armed queue hq hf
      obtain ⟨run, rest, hsplit⟩ := exists_cons_of_ne_nil (split_ne_nil hpending)
      have hflush := flush_armed hq hf hpending
      rw [hsplit] at hflush
      refine ⟨s.flush, { queue with timer := false, pending := [], flushing := true }, .inr rfl,
        by rw [hflush]; rfl, rfl, ?_⟩
      have htimerOff : ({ s with
          drains := s.drains + 1, queue := some { queue with timer := false } } : State).queue =
          some { queue with timer := false } := rfl
      have hflushOff := flush_armed htimerOff hf hpending
      rw [hsplit] at hflushOff
      rw [hflush]
      unfold State.drain State.await
      dsimp only
      rw [hq]
      dsimp only
      rw [htimer, if_pos rfl, hflushOff]
      rfl

theorem drain : Queues s.drain s.drain.flightIds := by
  rcases h.drain_cases with ⟨hq, heq⟩ | ⟨t, queue, ht, hq, -, heq⟩
  · rw [heq]
    refine ⟨h.distinct, h.idKnown, h.queueKnown, h.busy, h.armed, fun d hd => ?_, fun d hd => ?_⟩
    · have hd : d < s.drains + 1 := hd
      rcases Nat.lt_succ_iff_lt_or_eq.mp hd with hd | rfl
      · exact (h.waiting d hd).imp_left fun hd => mem_append_left _ hd
      · exact .inl (mem_append_right _ mem_cons_self)
    show d < s.drains + 1
    rcases hd with hd | hd
    · rcases mem_append.mp hd with hd | hd
      · exact Nat.lt_succ_of_lt (h.drainKnown d (.inl hd))
      · rw [mem_singleton.mp hd]
        exact Nat.lt_succ_self _
    · exact Nat.lt_succ_of_lt (h.drainKnown d (.inr hd))
  · rw [heq]
    rcases ht with rfl | rfl
    · exact h.await hq
    · exact h.flush.await hq

theorem timerFires : Queues s.timerFires s.timerFires.flightIds := by
  unfold State.timerFires
  split
  · exact h
  · split
    · exact h.flush
    · exact h

end

end Queues

theorem flush_current {s : State} (hq : Queues s s.flightIds)
    (h : ∀ flight ∈ s.flights, s.Current flight.queue) :
    ∀ flight ∈ s.flush.flights, s.flush.Current flight.queue := by
  cases hqueue : s.queue with
  | none =>
    rw [flush_none hqueue]
    exact h
  | some queue =>
    cases hf : queue.flushing with
    | true =>
      rw [flush_busy hqueue hf]
      exact h
    | false =>
      have hpending := (hq.armed queue hqueue hf).2.1
      obtain ⟨run, rest, hsplit⟩ := exists_cons_of_ne_nil (split_ne_nil hpending)
      rw [flush_armed hqueue hf hpending, hsplit]
      intro flight hflight
      rcases mem_append.mp hflight with hflight | hflight
      · obtain ⟨q, hq', hid⟩ := h flight hflight
        cases hqueue.symm.trans hq'
        exact ⟨_, rfl, hid⟩
      · obtain rfl := mem_singleton.mp hflight
        exact ⟨_, rfl, rfl⟩

theorem current_unique {s : State} {i j : Nat} (hi : s.Current i) (hj : s.Current j) : i = j := by
  obtain ⟨q, hq, rfl⟩ := hi
  obtain ⟨q', hq', rfl⟩ := hj
  rw [some.inj (hq.symm.trans hq')]

end CcPanes.InputQueue

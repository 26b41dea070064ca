import CcPanes.Terminal.InputQueueFlights

/-!
# The order of the inputs
-/

namespace CcPanes.InputQueue

open State List

/-- before a clear: `runs` and the later runs of flights have not been handed over -/
def InOrder (s : State) (runs : List InputRun) : Prop :=
  ∃ done, s.enqueued = done ++ (s.unsentRuns runs).flatMap InputRun.items ++ s.pending ∧
    s.handedItems.Sublist done ∧ (∀ item ∈ done, item ∈ s.handedItems ∨ s.Rejected item) ∧
    (s.failed = [] → s.handedItems = done)

structure Order (s : State) (ids : List Nat) (runs : List InputRun) : Prop where
  current : s.clears = 0 → ∀ id ∈ ids, s.Current id
  inOrder : s.clears = 0 → InOrder s runs

namespace Order
variable {s : State} {id : Nat} {ids : List Nat} {batch : List QueuedTerminalInput}
  {runs : List InputRun}

theorem alone (h : Order s (id :: ids) runs) (hdistinct : (id :: ids).Nodup) (hc : s.clears = 0) :
    ids = [] := by
  refine eq_nil_iff_forall_not_mem.mpr fun i hi => ?_
  have heq := current_unique (h.current hc i (mem_cons_of_mem _ hi))
    (h.current hc id mem_cons_self)
  exact (nodup_cons.mp hdistinct).1 (heq ▸ hi)

theorem alone_flights (h : Order s (id :: s.flightIds) runs)
    (hdistinct : (id :: s.flightIds).Nodup) (hc : s.clears = 0) : s.flights = [] :=
  map_eq_nil_iff.mp (h.alone hdistinct hc)

theorem finallyBlock (h : Order s (id :: s.flightIds) [])
    (hdistinct : (id :: s.flightIds).Nodup) :
    Order (s.finallyBlock id) (s.finallyBlock id).flightIds [] := by
  obtain ⟨hflights, henqueued, -, -, -, hsettled, hhanded, hfailed, hclears⟩ :=
    finallyBlock_frame (s := s) id
  refine ⟨fun hc => ?_, fun hc => ?_⟩
  · unfold flightIds
    rw [hflights, h.alone_flights hdistinct (hclears ▸ hc)]
    exact nofun
  obtain ⟨done, hsplit, hsub, hdone, hall⟩ := h.inOrder (hclears ▸ hc)
  refine ⟨done, ?_, ?_, fun item hi => ?_, fun hf => ?_⟩
  · unfold unsentRuns at hsplit ⊢
    rw [henqueued, hflights, pending_finallyBlock, hsplit]
  · unfold handedItems at hsub ⊢
    rwa [hhanded]
  · unfold handedItems Rejected at hdone ⊢
    rw [hhanded, hsettled]
    exact hdone item hi
  · unfold handedItems at hall ⊢
    rw [hhanded]
    exact hall (hfailed ▸ hf)

theorem settle (h : Order s ids runs) (items : List QueuedTerminalInput) (how : Settlement) :
    Order (s.settle items how) ids runs := by
  refine ⟨h.current, fun hc => ?_⟩
  obtain ⟨done, hsplit, hsub, hdone, hall⟩ := h.inOrder hc
  refine ⟨done, hsplit, hsub, fun item hi => (hdone item hi).imp_right fun hr => ?_, hall⟩
  exact mem_settle.mpr (.inl hr)

theorem loop (h : Order s (id :: s.flightIds) runs) (hdistinct : (id :: s.flightIds).Nodup) :
    Order (s.loop id batch runs) (s.loop id batch runs).flightIds [] := by
  cases runs with
  | nil => exact (h.settle batch .fulfilled).finallyBlock hdistinct
  | cons run rest =>
    have hids : (s.loop id batch (run :: rest)).flightIds = s.flightIds ++ [id] := map_append
    refine ⟨fun hc i hi => ?_, fun hc => ?_⟩
    · rw [hids] at hi
      exact h.current hc i ((perm_append_singleton id s.flightIds).mem_iff.mp hi)
    obtain ⟨done, hsplit, hsub, hdone, hall⟩ := h.inOrder hc
    have hflights := h.alone_flights hdistinct hc
    have hitems : (s.loop id batch (run :: rest)).handedItems = s.handedItems ++ run.items := by
      show (s.handed ++ [run]).flatMap InputRun.items = _
      rw [flatMap_append, flatMap_singleton]
      rfl
    have hunsent : (s.loop id batch (run :: rest)).unsentRuns [] = rest := by
      show (s.flights ++ [(⟨id, batch, run, rest⟩ : Flight)]).flatMap Flight.rest ++ [] = rest
      rw [hflights, append_nil, nil_append, flatMap_singleton]
    refine ⟨done ++ run.items, ?_, ?_, fun item hi => ?_, fun hf => ?_⟩
    · rw [hunsent]
      show s.enqueued = done ++ run.items ++ rest.flatMap InputRun.items ++ s.pending
      rw [hsplit]
      unfold unsentRuns
      rw [hflights, flatMap_nil, nil_append, flatMap_cons]
      simp only [append_assoc]
    · rw [hitems]
      exact hsub.append (List.Sublist.refl _)
    · rw [hitems, mem_append]
      rcases mem_append.mp hi with hi | hi
      · exact (hdone item hi).imp_left .inl
      · exact .inl (.inr hi)
    · rw [hitems, hall hf]

theorem flush (h : Order s s.flightIds []) (hq : Queues s s.flightIds) :
    Order s.flush s.flush.flightIds [] := by
  cases hqueue : s.queue with
  | none =>
    rw [flush_none hqueue]
    exact h
  | some queue =>
    cases hf : queue.flushing with
    | true =>
      rw [flush_busy hqueue hf]
      exact h
    | false =>
      rw [flush_armed hqueue hf (hq.armed queue hqueue hf).2.1]
      suffices hopened : Order
          { s with queue := some { queue with timer := false, pending := [], flushing := true } }
          (queue.id :: s.flightIds) (splitInputRunsBySource queue.pending) from
        hopened.loop (hq.opened hqueue hf).distinct
      refine ⟨fun hc i hi => ?_, fun hc => ?_⟩
      · rcases mem_cons.mp hi with rfl | hi
        · exact ⟨_, rfl, rfl⟩
        · obtain ⟨q, hq', hid⟩ := h.current hc i hi
          cases hqueue.symm.trans hq'
          exact ⟨_, rfl, hid⟩
      · obtain ⟨done, hsplit, hsub, hdone, hall⟩ := h.inOrder hc
        refine ⟨done, ?_, hsub, hdone, hall⟩
        show s.enqueued = done ++ (s.flights.flatMap Flight.rest ++ _).flatMap InputRun.items ++ []
        rw [hsplit, pending_of_queue hqueue, flatMap_append, split_items, append_nil]
        unfold unsentRuns
        rw [append_nil, append_assoc]

theorem take (h : Order s s.flightIds []) (hq : Queues s s.flightIds) {index : Nat}
    {flight : Flight} (hf : s.flights[index]? = some flight) :
    Order { s with flights := s.flights.eraseIdx index }
      (flight.queue :: State.flightIds { s with flights := s.flights.eraseIdx index })
      flight.rest := by
  obtain ⟨hlt, hget⟩ := List.getElem?_eq_some_iff.mp hf
  have hperm : (flight :: s.flights.eraseIdx index).Perm s.flights := by
    rw [← hget]
    exact getElem_cons_eraseIdx_perm hlt
  have hcurrent : s.clears = 0 → ∀ i ∈ flight.queue ::
      State.flightIds { s with flights := s.flights.eraseIdx index }, s.Current i :=
    fun hc i hi => h.current hc i ((hperm.map Flight.queue).mem_iff.mp hi)
  refine ⟨hcurrent, fun hc => ?_⟩
  obtain ⟨done, hsplit, hsub, hdone, hall⟩ := h.inOrder hc
  refine ⟨done, ?_, hsub, hdone, hall⟩
  have hids : Order s (flight.queue ::
      State.flightIds { s with flights := s.flights.eraseIdx index }) [] := ⟨hcurrent, h.inOrder⟩
  have hrest : s.flights.eraseIdx index = [] :=
    map_eq_nil_iff.mp (hids.alone (hq.take hf).distinct hc)
  have hone : s.flights = [flight] := by
    rw [hrest] at hperm
    exact perm_singleton.mp hperm.symm
  show s.enqueued = done ++ ((s.flights.eraseIdx index).flatMap Flight.rest ++
    flight.rest).flatMap InputRun.items ++ s.pending
  rw [hsplit, hrest]
  unfold unsentRuns
  rw [hone, append_nil, flatMap_singleton]
  rfl

theorem writeDone (h : Order s s.flightIds []) (hq : Queues s s.flightIds) (index : Nat) :
    Order (s.writeDone index) (s.writeDone index).flightIds [] := by
  unfold State.writeDone
  split
  · exact h
  next flight hf =>
  have htaken := h.take hq hf
  have hwrote : Order { s with
      flights := s.flights.eraseIdx index, written := s.written ++ [flight.run] }
      (flight.queue :: State.flightIds { s with flights := s.flights.eraseIdx index })
      flight.rest := ⟨htaken.current, htaken.inOrder⟩
  exact hwrote.loop (hq.take hf).distinct

theorem writeFailed (h : Order s s.flightIds []) (hl : Ledger s [] []) (hq : Queues s s.flightIds)
    (index : Nat) : Order (s.writeFailed index) (s.writeFailed index).flightIds [] := by
  unfold State.writeFailed
  split
  · exact h
  next flight hf =>
  have hmem := mem_of_getElem? hf
  have htaken := h.take hq hf
  refine finallyBlock ⟨htaken.current, fun hc => ?_⟩ (hq.take hf).distinct
  obtain ⟨done, hsplit, hsub, hdone, -⟩ := htaken.inOrder hc
  have hflights := htaken.alone_flights (hq.take hf).distinct hc
  have hunsent : ∀ runs, State.unsentRuns { s with flights := s.flights.eraseIdx index } runs =
      runs := by
    intro runs
    unfold unsentRuns
    rw [hflights]
    rfl
  rw [hunsent] at hsplit
  refine ⟨done ++ flight.rest.flatMap InputRun.items, ?_, ?_, fun item hi => ?_, fun hfailed => ?_⟩
  · show s.enqueued = _ ++ (State.unsentRuns { s with
      flights := s.flights.eraseIdx index } []).flatMap InputRun.items ++ s.pending
    rw [hunsent, flatMap_nil, append_nil]
    exact hsplit
  · exact hsub.trans (sublist_append_left _ _)
  · rcases mem_append.mp hi with hi | hi
    · exact (hdone item hi).imp_right fun hr => mem_settle.mpr (.inl hr)
    obtain ⟨run, hrun, hi⟩ := mem_flatMap.mp hi
    have hbatch := Ledger.mem_batch (hl.begun flight hmem) (mem_cons_of_mem _ hrun) hi
    have hlive : item ∈ s.live [] := by
      unfold live
      rw [append_nil]
      exact mem_append_left _ (mem_flatMap_of_mem hmem hbatch)
    exact .inr (mem_settle.mpr (.inr ⟨rfl, item, hbatch, rfl, hl.unsettled item hlive⟩))
  · exact absurd hfailed (append_ne_nil_of_right_ne_nil _ (cons_ne_nil _ _))

theorem clear (h : Order s s.flightIds []) : Order s.clear s.clear.flightIds [] := by
  unfold State.clear
  split
  · exact h
  · exact ⟨fun hc => absurd hc (Nat.succ_ne_zero _), fun hc => absurd hc (Nat.succ_ne_zero _)⟩

theorem arrive (h : Order s ids []) {queue : Option TerminalInputQueue} {queues : Nat}
    {item : QueuedTerminalInput}
    (hpending : State.pending { s with queue := queue } = s.pending ++ [item])
    (hcurrent : ∀ q, s.queue = some q → ∃ q', queue = some q' ∧ q'.id = q.id) :
    Order { s with enqueued := s.enqueued ++ [item], queue := queue, queues := queues } ids [] := by
  refine ⟨fun hc i hi => ?_, fun hc => ?_⟩
  · obtain ⟨q, hq, hid⟩ := h.current hc i hi
    obtain ⟨q', hq', hid'⟩ := hcurrent q hq
    exact ⟨q', hq', hid'.trans hid⟩
  obtain ⟨done, hsplit, hsub, hdone, hall⟩ := h.inOrder hc
  refine ⟨done, ?_, hsub, hdone, hall⟩
  show s.enqueued ++ [item] = done ++ (s.unsentRuns []).flatMap InputRun.items ++
    State.pending { s with queue := queue }
  rw [hpending, hsplit, append_assoc _ s.pending]

theorem enqueue (h : Order s ids []) (data : JsString) (source : TerminalWriteSource) :
    Order (s.enqueue data source) ids [] := by
  unfold State.enqueue
  split
  · exact h
  dsimp only
  split
  · next queue hqueue =>
    refine h.arrive ?_ fun q hq => ?_
    · rw [pending_of_queue hqueue]
      rfl
    · cases hqueue.symm.trans hq
      exact ⟨_, rfl, rfl⟩
  · next hnone =>
    refine h.arrive ?_ fun q hq => ?_
    · unfold pending
      rw [hnone]
      rfl
    · rw [hnone] at hq
      cases hq

theorem await (h : Order s ids runs) {queue : TerminalInputQueue} (hqueue : s.queue = some queue) :
    Order (s.await queue) ids runs := by
  refine ⟨fun hc i hi => ?_, fun hc => ?_⟩
  · obtain ⟨q, hq', hid⟩ := h.current hc i hi
    cases hqueue.symm.trans hq'
    exact ⟨_, rfl, hid⟩
  obtain ⟨done, hsplit, hdone⟩ := h.inOrder hc
  refine ⟨done, ?_, hdone⟩
  rw [pending_of_queue hqueue] at hsplit
  exact hsplit

theorem drain (h : Order s s.flightIds []) (hq : Queues s s.flightIds) :
    Order s.drain s.drain.flightIds [] := by
  rcases hq.drain_cases with ⟨-, heq⟩ | ⟨t, queue, ht, hqueue, -, heq⟩
  · rw [heq]
    exact ⟨h.current, h.inOrder⟩
  rw [heq]
  rcases ht with rfl | rfl
  · exact h.await hqueue
  · exact (h.flush hq).await hqueue

theorem submit (h : Order s s.flightIds []) (hq : Queues s s.flightIds) :
    Order s.submit s.submit.flightIds [] := by
  have hdrain := h.drain hq
  exact ⟨hdrain.current, hdrain.inOrder⟩

theorem submitStarts (h : Order s s.flightIds []) (index : Nat) :
    Order (s.submitStarts index) (s.submitStarts index).flightIds [] := by
  unfold State.submitStarts
  split
  · exact h
  · split
    · exact ⟨h.current, h.inOrder⟩
    · exact h

theorem timerFires (h : Order s s.flightIds []) (hq : Queues s s.flightIds) :
    Order s.timerFires s.timerFires.flightIds [] := by
  unfold State.timerFires
  split
  · exact h
  · split
    · exact h.flush hq
    · exact h

theorem handedInOrder (h : Order s ids []) (hl : Ledger s [] []) (hc : s.clears = 0) :
    s.HandedInOrder := by
  obtain ⟨done, hsplit, hsub, hdone, hall⟩ := h.inOrder hc
  refine ⟨done, (s.unsentRuns []).flatMap InputRun.items ++ s.pending, ?_, hsub, hdone,
    fun item hi => hl.unsettled item ?_, hall⟩
  · rw [hsplit, append_assoc]
  unfold live
  rw [append_nil]
  rcases mem_append.mp hi with hi | hi
  · obtain ⟨run, hrun, hi⟩ := mem_flatMap.mp hi
    unfold unsentRuns at hrun
    rw [append_nil] at hrun
    obtain ⟨flight, hf, hrest⟩ := mem_flatMap.mp hrun
    refine mem_append_left _ (mem_flatMap_of_mem hf ?_)
    exact Ledger.mem_batch (hl.begun flight hf) (mem_cons_of_mem _ hrest) hi
  · exact mem_append_right _ hi

end Order

end CcPanes.InputQueue

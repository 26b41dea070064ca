import CcPanes.Terminal.InputQueueFlights

/-!
# What a submit waits for
-/

namespace CcPanes.InputQueue

open State List Option

namespace State

def Awaited (s : State) (id : Nat) (batch : List QueuedTerminalInput) : Prop :=
  ∀ submit ∈ s.submits, submit.drain ∉ s.drained → ∀ item ∈ batch, item.promise < submit.before →
    s.Current id

end State

structure Submits (s : State) : Prop where
  known : ∀ submit ∈ s.submits, submit.drain < s.drains ∧ submit.before ≤ s.enqueued.length
  started : ∀ submit ∈ s.submits, submit.started = true → submit.drain ∈ s.drained
  done : ∀ submit ∈ s.submits, submit.drain ∈ s.drained →
    ∀ item ∈ s.enqueued, item.promise < submit.before → s.isSettled item = true
  waits : ∀ flight ∈ s.flights, s.Awaited flight.queue flight.batch

namespace Submits
variable {s : State}

theorem settle (h : Submits s) (items : List QueuedTerminalInput) (how : Settlement) :
    Submits (s.settle items how) :=
  ⟨h.known, h.started, fun submit hs hd item hi hlt =>
    isSettled_settle.mpr (.inl (h.done submit hs hd item hi hlt)), h.waits⟩

theorem finallyBlock (h : Submits s) {id : Nat} (hl : Ledger s [] [])
    (hq : Queues s (id :: s.flightIds)) : Submits (s.finallyBlock id) := by
  have hnot := (nodup_cons.mp hq.distinct).1
  rcases finallyBlock_cases (s := s) id with
    ⟨heq, -⟩ | ⟨queue, hqueue, hid, ⟨-, heq⟩ | ⟨hpending, heq⟩⟩
  · rw [heq]
    exact h
  · rw [heq]
    refine ⟨h.known, h.started, h.done, fun flight hf submit hs hd item hi hlt => ?_⟩
    obtain ⟨q, hq', hid⟩ := h.waits flight hf submit hs hd item hi hlt
    cases hqueue.symm.trans hq'
    exact ⟨_, rfl, hid⟩
  rw [heq]
  have hall : ∀ d < s.drains, d ∈ s.drained ++ queue.idleResolvers := by
    intro d hd
    rcases hq.waiting d hd with hd | ⟨q, hq', hd⟩
    · exact mem_append_left _ hd
    · cases hqueue.symm.trans hq'
      exact mem_append_right _ hd
  refine ⟨h.known, fun submit hs _ => hall _ (h.known submit hs).1,
    fun submit hs _ item hi hlt => ?_,
    fun _ _ submit hs hd => absurd (hall _ (h.known submit hs).1) hd⟩
  by_cases hd : submit.drain ∈ s.drained
  · exact h.done submit hs hd item hi hlt
  rcases hl.covered item hi with hsettled | hlive
  · exact hsettled
  unfold live at hlive
  rw [pending_of_queue hqueue, hpending, append_nil, append_nil] at hlive
  obtain ⟨flight, hf, hi'⟩ := mem_flatMap.mp hlive
  obtain ⟨q, hq', hid'⟩ := h.waits flight hf submit hs hd item hi' hlt
  cases hqueue.symm.trans hq'
  exact absurd (mem_map.mpr ⟨flight, hf, hid'.symm.trans hid⟩) hnot

theorem loop (h : Submits s) {id : Nat} {batch : List QueuedTerminalInput} {runs : List InputRun}
    (hl : Ledger s batch runs) (hbegun : Begun s batch runs) (hq : Queues s (id :: s.flightIds))
    (hbatch : s.Awaited id batch) : Submits (s.loop id batch runs) := by
  cases runs with
  | nil => exact (h.settle batch .fulfilled).finallyBlock (hl.fulfil hbegun) hq.congr
  | cons =>
    refine ⟨h.known, h.started, h.done, fun flight hf => ?_⟩
    rcases mem_append.mp hf with hf | hf
    · exact h.waits flight hf
    · obtain rfl := mem_singleton.mp hf
      exact hbatch

theorem flush (h : Submits s) (hl : Ledger s [] []) (hq : Queues s s.flightIds) :
    Submits s.flush := by
  cases hqueue : s.queue with
  | none =>
    rw [flush_none hqueue]
    exact h
  | some queue =>
    cases hf : queue.flushing with
    | true =>
      rw [flush_busy hqueue hf]
      exact h
    | false =>
      have hpending := (hq.armed queue hqueue hf).2.1
      have hopened : Submits { s with
          queue := some { queue with timer := false, pending := [], flushing := true } } := by
        refine ⟨h.known, h.started, h.done, fun flight hf submit hs hd item hi hlt => ?_⟩
        obtain ⟨q, hq', hid⟩ := h.waits flight hf submit hs hd item hi hlt
        cases hqueue.symm.trans hq'
        exact ⟨_, rfl, hid⟩
      rw [flush_armed hqueue hf hpending, ← pending_of_queue hqueue]
      exact hopened.loop (hl.open_ rfl) ⟨[], rfl, nofun⟩ (hq.opened hqueue hf)
        fun _ _ _ _ _ _ => ⟨_, rfl, rfl⟩

theorem writeDone (h : Submits s) (hl : Ledger s [] []) (hq : Queues s s.flightIds) (index : Nat) :
    Submits (s.writeDone index) := by
  unfold State.writeDone
  split
  · exact h
  next flight hf =>
  obtain ⟨hdone, hbegun⟩ := hl.takeDone hf
  have htaken : Submits { s with
      flights := s.flights.eraseIdx index, written := s.written ++ [flight.run] } :=
    ⟨h.known, h.started, h.done,
      fun f hf => h.waits f ((eraseIdx_sublist s.flights index).subset hf)⟩
  exact htaken.loop hdone hbegun (hq.take hf).congr (h.waits flight (mem_of_getElem? hf))

theorem writeFailed (h : Submits s) (hl : Ledger s [] []) (hq : Queues s s.flightIds) {index : Nat}
    (hfirst : ∀ flight ∈ s.flights[index]?,
      flight.run :: flight.rest = splitInputRunsBySource flight.batch) :
    Submits (s.writeFailed index) := by
  unfold State.writeFailed
  split
  · exact h
  next flight hf =>
  have htaken : Submits { s with
      flights := s.flights.eraseIdx index, failed := s.failed ++ [flight.run] } :=
    ⟨h.known, h.started, h.done,
      fun f hf => h.waits f ((eraseIdx_sublist s.flights index).subset hf)⟩
  exact (htaken.settle flight.batch .rejected).finallyBlock (hl.takeFailed hf (hfirst flight hf))
    (hq.take hf).congr

theorem await (h : Submits s) {queue : TerminalInputQueue} (hqueue : s.queue = some queue) :
    Submits (s.await queue) := by
  refine ⟨fun submit hs => ?_, h.started, h.done, fun flight hf submit hs hd item hi hlt => ?_⟩
  · obtain ⟨hdrain, hbefore⟩ := h.known submit hs
    exact ⟨Nat.lt_succ_of_lt hdrain, hbefore⟩
  · obtain ⟨q, hq', hid⟩ := h.waits flight hf submit hs hd item hi hlt
    cases hqueue.symm.trans hq'
    exact ⟨_, rfl, hid⟩

theorem drain (h : Submits s) (hl : Ledger s [] []) (hq : Queues s s.flightIds) :
    Submits s.drain := by
  rcases hq.drain_cases with ⟨hnone, heq⟩ | ⟨t, queue, ht, hqueue, -, heq⟩
  · rw [heq]
    have hold : ∀ submit ∈ s.submits, submit.drain ∈ s.drained ++ [s.drains] →
        submit.drain ∈ s.drained := by
      intro submit hs hd
      rcases mem_append.mp hd with hd | hd
      · exact hd
      · have hlt := (h.known submit hs).1
        rw [mem_singleton.mp hd] at hlt
        exact absurd hlt (Nat.lt_irrefl _)
    refine ⟨fun submit hs => ?_, fun submit hs hstarted => ?_,
      fun submit hs hd => h.done submit hs (hold submit hs hd), fun flight hf submit hs hd => ?_⟩
    · obtain ⟨hdrain, hbefore⟩ := h.known submit hs
      exact ⟨Nat.lt_succ_of_lt hdrain, hbefore⟩
    · exact mem_append_left _ (h.started submit hs hstarted)
    · exact h.waits flight hf submit hs fun hmem => hd (mem_append_left _ hmem)
  · rw [heq]
    rcases ht with rfl | rfl
    · exact h.await hqueue
    · exact (h.flush hl hq).await hqueue

theorem clear (h : Submits s) (hl : Ledger s [] []) (hq : Queues s s.flightIds)
    (hcareful : ∀ submit ∈ s.submits, submit.drain ∉ s.drained →
      ∀ flight ∈ s.flights, ∀ item ∈ flight.batch, submit.before ≤ item.promise) :
    Submits s.clear := by
  unfold State.clear
  split
  · exact h
  next queue hqueue =>
  have hall : ∀ d < s.drains, d ∈ s.drained ++ queue.idleResolvers := by
    intro d hd
    rcases hq.waiting d hd with hd | ⟨q, hq', hd⟩
    · exact mem_append_left _ hd
    · cases hqueue.symm.trans hq'
      exact mem_append_right _ hd
  refine ⟨h.known, fun submit hs _ => hall _ (h.known submit hs).1,
    fun submit hs _ item hi hlt => ?_,
    fun _ _ submit hs hd => absurd (hall _ (h.known submit hs).1) hd⟩
  refine (isSettled_settle (s := s)).mpr ?_
  by_cases hd : submit.drain ∈ s.drained
  · exact .inl (h.done submit hs hd item hi hlt)
  rcases hl.covered item hi with hsettled | hlive
  · exact .inl hsettled
  unfold live at hlive
  rw [pending_of_queue hqueue, append_nil] at hlive
  rcases mem_append.mp hlive with hlive | hlive
  · obtain ⟨flight, hf, hi'⟩ := mem_flatMap.mp hlive
    exact absurd hlt (Nat.not_lt.mpr (hcareful submit hs hd flight hf item hi'))
  · exact .inr ⟨item, hlive, rfl⟩

theorem arrive (h : Submits s) {queue : Option TerminalInputQueue} {queues : Nat}
    {item : QueuedTerminalInput} (hitem : item.promise = s.enqueued.length)
    (hcurrent : ∀ q, s.queue = some q → ∃ q', queue = some q' ∧ q'.id = q.id) :
    Submits { s with enqueued := s.enqueued ++ [item], queue := queue, queues := queues } := by
  refine ⟨fun submit hs => ?_, h.started, fun submit hs hd i hi hlt => ?_,
    fun flight hf submit hs hd i hi hlt => ?_⟩
  · obtain ⟨hdrain, hbefore⟩ := h.known submit hs
    refine ⟨hdrain, ?_⟩
    show submit.before ≤ (s.enqueued ++ [item]).length
    rw [length_append]
    omega
  · rcases mem_append.mp hi with hi | hi
    · exact h.done submit hs hd i hi hlt
    · have hbefore := (h.known submit hs).2
      rw [mem_singleton.mp hi] at hlt
      omega
  · obtain ⟨q, hq, hid⟩ := h.waits flight hf submit hs hd i hi hlt
    obtain ⟨q', hq', hid'⟩ := hcurrent q hq
    exact ⟨q', hq', hid'.trans hid⟩

theorem enqueue (h : Submits s) (data : JsString) (source : TerminalWriteSource) :
    Submits (s.enqueue data source) := by
  unfold State.enqueue
  split
  · exact h
  dsimp only
  split
  · next queue hqueue =>
    refine h.arrive rfl fun q hq => ?_
    cases hqueue.symm.trans hq
    exact ⟨_, rfl, rfl⟩
  next hnone =>
  refine h.arrive rfl fun q hq => ?_
  rw [hnone] at hq
  cases hq

theorem join (h : Submits s) {d : Nat} (hd : d < s.drains)
    (hdone : d ∈ s.drained → ∀ item ∈ s.enqueued, s.isSettled item = true)
    (hwaits : d ∉ s.drained → ∀ flight ∈ s.flights, s.Current flight.queue) :
    Submits { s with submits := s.submits ++ [⟨d, s.enqueued.length, false⟩] } := by
  refine ⟨fun submit hs => ?_, fun submit hs hstarted => ?_, fun submit hs hmem item hi hlt => ?_,
    fun flight hf submit hs hnot item hi hlt => ?_⟩
  all_goals rcases mem_append.mp hs with hs | hs
  · exact h.known submit hs
  · obtain rfl := mem_singleton.mp hs
    exact ⟨hd, Nat.le_refl _⟩
  · exact h.started submit hs hstarted
  · obtain rfl := mem_singleton.mp hs
    cases hstarted
  · exact h.done submit hs hmem item hi hlt
  · obtain rfl := mem_singleton.mp hs
    exact hdone hmem item hi
  · exact h.waits flight hf submit hs hnot item hi hlt
  · obtain rfl := mem_singleton.mp hs
    exact hwaits hnot flight hf

theorem submit (h : Submits s) (hl : Ledger s [] []) (hq : Queues s s.flightIds)
    (hcareful : ∀ flight ∈ s.flights, s.Current flight.queue) : Submits s.submit := by
  have hdrain := h.drain hl hq
  have hsubmit : s.submit =
      { s.drain with submits := s.submits ++ [⟨s.drains, s.enqueued.length, false⟩] } := rfl
  rcases hq.drain_cases with ⟨hnone, heq⟩ | ⟨t, queue, ht, hqueue, hflushing, heq⟩
  · rw [heq] at hdrain
    rw [hsubmit, heq]
    refine hdrain.join (Nat.lt_succ_self _) (fun _ item hi => ?_) fun _ flight hf => hcareful flight hf
    rcases hl.covered item hi with hsettled | hlive
    · exact hsettled
    unfold live pending at hlive
    rw [hnone, append_nil, append_nil] at hlive
    obtain ⟨flight, hf, -⟩ := mem_flatMap.mp hlive
    obtain ⟨q, hq', -⟩ := hcareful flight hf
    rw [hnone] at hq'
    cases hq'
  have hcurrent : Queues t t.flightIds ∧ t.enqueued = s.enqueued ∧ t.drains = s.drains ∧
      t.submits = s.submits ∧ ∀ flight ∈ t.flights, t.Current flight.queue := by
    rcases ht with rfl | rfl
    · exact ⟨hq, rfl, rfl, rfl, hcareful⟩
    · obtain ⟨henqueued, hdrains, hsubmits⟩ := flush_frame (s := s)
      exact ⟨hq.flush, henqueued, hdrains, hsubmits, flush_current hq hcareful⟩
  obtain ⟨hqt, henqueued, hdrains, hsubmits, hcurrent⟩ := hcurrent
  rw [heq] at hdrain
  rw [hsubmit, heq, ← henqueued, ← hdrains, ← hsubmits]
  refine hdrain.join (Nat.lt_succ_self _) (fun hmem => ?_) fun _ flight hf => ?_
  · exact absurd (hqt.drainKnown _ (.inl hmem)) (Nat.lt_irrefl _)
  · obtain ⟨q, hq', hid⟩ := hcurrent flight hf
    cases hqueue.symm.trans hq'
    exact ⟨_, rfl, hid⟩

theorem submitStarts (h : Submits s) (index : Nat) : Submits (s.submitStarts index) := by
  unfold State.submitStarts
  split
  · exact h
  next submit hget =>
  split
  · next hd =>
    have hmem : submit ∈ s.submits := mem_of_getElem? hget
    refine ⟨fun r hr => ?_, fun r hr hstarted => ?_, fun r hr hdr => ?_, fun flight hf r hr hdr => ?_⟩
    all_goals rcases mem_or_eq_of_mem_set hr with hr | rfl
    · exact h.known r hr
    · exact h.known submit hmem
    · exact h.started r hr hstarted
    · exact hd
    · exact h.done r hr hdr
    · exact h.done submit hmem hdr
    · exact h.waits flight hf r hr hdr
    · exact h.waits flight hf submit hmem hdr
  · exact h

theorem timerFires (h : Submits s) (hl : Ledger s [] []) (hq : Queues s s.flightIds) :
    Submits s.timerFires := by
  unfold State.timerFires
  split
  · exact h
  · split
    · exact h.flush hl hq
    · exact h

end Submits

end CcPanes.InputQueue

import CcPanes.Terminal.InputQueue
import Mathlib.Data.List.Induction
import Mathlib.Data.List.Perm.Basic
import Mathlib.Tactic.ByContra

/-!
# Where each input is

An input is pending, in a batch on its way, or settled, and only one of these.
-/

namespace CcPanes.InputQueue

open State List

/-! ## runs -/

theorem addToRuns_items (runs : List InputRun) (item : QueuedTerminalInput) :
    (addToRuns runs item).flatMap InputRun.items = runs.flatMap InputRun.items ++ [item] := by
  unfold addToRuns
  split
  · rw [flatMap_append]
    rfl
  next tail htail =>
  have hruns : runs.dropLast ++ [tail] = runs := dropLast_append_getLast? tail htail
  split
  · rw [flatMap_append, ← hruns, dropLast_concat, flatMap_append, append_assoc]
    simp
  · rw [flatMap_append]
    rfl

theorem addToRuns_length (runs : List InputRun) (item : QueuedTerminalInput) :
    (addToRuns runs item).length ≤ runs.length + 1 := by
  unfold addToRuns
  split
  · exact Nat.le_of_eq length_append
  next tail htail =>
  have hpos : 0 < runs.length := length_pos_iff.mpr fun hnil => by
    rw [hnil] at htail
    cases htail
  split
  · rw [length_append, length_dropLast, length_singleton]
    omega
  · exact Nat.le_of_eq length_append

theorem addToRuns_source {runs : List InputRun} {item : QueuedTerminalInput}
    (h : ∀ run ∈ runs, ∀ i ∈ run.items, i.source = run.source) :
    ∀ run ∈ addToRuns runs item, ∀ i ∈ run.items, i.source = run.source := by
  have hnew : ∀ run ∈ runs ++ [⟨item.source, [item]⟩], ∀ i ∈ run.items, i.source = run.source := by
    intro run hrun i hi
    rcases mem_append.mp hrun with hrun | hrun
    · exact h run hrun i hi
    · obtain rfl := mem_singleton.mp hrun
      rw [mem_singleton.mp hi]
  unfold addToRuns
  split
  · exact hnew
  next tail htail =>
  split
  · next hsame =>
    intro run hrun i hi
    rcases mem_append.mp hrun with hrun | hrun
    · exact h run ((dropLast_sublist runs).subset hrun) i hi
    obtain rfl := mem_singleton.mp hrun
    rcases mem_append.mp hi with hi | hi
    · exact h tail (mem_of_getLast? htail) i hi
    · rw [mem_singleton.mp hi, ← hsame]
  · exact hnew

theorem splitInputRunsBySource_induct {P : List QueuedTerminalInput → List InputRun → Prop}
    (hnil : P [] [])
    (hstep : ∀ batch runs item, P batch runs → P (batch ++ [item]) (addToRuns runs item))
    (batch : List QueuedTerminalInput) : P batch (splitInputRunsBySource batch) := by
  induction batch using reverseRecOn with
  | nil => exact hnil
  | append_singleton batch item ih =>
    unfold splitInputRunsBySource at ih ⊢
    rw [foldl_append]
    exact hstep batch _ item ih

theorem split_items (batch : List QueuedTerminalInput) :
    (splitInputRunsBySource batch).flatMap InputRun.items = batch := by
  refine splitInputRunsBySource_induct
    (P := fun batch runs => runs.flatMap InputRun.items = batch) rfl ?_ batch
  intro batch runs item ih
  rw [addToRuns_items, ih]

theorem split_length (batch : List QueuedTerminalInput) :
    (splitInputRunsBySource batch).length ≤ batch.length := by
  refine splitInputRunsBySource_induct
    (P := fun batch runs => runs.length ≤ batch.length) (Nat.le_refl 0) ?_ batch
  intro batch runs item ih
  have hle := addToRuns_length runs item
  rw [length_append, length_singleton]
  omega

theorem split_source (batch : List QueuedTerminalInput) :
    ∀ run ∈ splitInputRunsBySource batch, ∀ item ∈ run.items, item.source = run.source := by
  refine splitInputRunsBySource_induct
    (P := fun _ runs => ∀ run ∈ runs, ∀ item ∈ run.items, item.source = run.source) ?_ ?_ batch
  · intro run hrun
    cases hrun
  · intro batch runs item ih
    exact addToRuns_source ih

theorem split_ne_nil {batch : List QueuedTerminalInput} (h : batch ≠ []) :
    splitInputRunsBySource batch ≠ [] := by
  intro hnil
  have hitems := split_items batch
  rw [hnil] at hitems
  exact h hitems.symm

section
variable {s : State} {items : List QueuedTerminalInput} {how : Settlement}
  {item : QueuedTerminalInput}

theorem mem_settle {p : Nat} {h : Settlement} :
    (p, h) ∈ (s.settle items how).settled ↔
      (p, h) ∈ s.settled ∨ h = how ∧ ∃ item ∈ items, item.promise = p ∧ s.isSettled item = false := by
  unfold settle
  rw [mem_append, mem_map]
  refine or_congr_right ⟨?_, ?_⟩
  · rintro ⟨item, hitem, heq⟩
    obtain ⟨hmem, hfree⟩ := mem_filter.mp hitem
    cases heq
    exact ⟨rfl, item, hmem, rfl, by simpa using hfree⟩
  · rintro ⟨rfl, item, hmem, rfl, hfree⟩
    exact ⟨item, mem_filter.mpr ⟨hmem, by simpa using hfree⟩, rfl⟩

theorem isSettled_iff :
    s.isSettled item = true ↔ ∃ h, (item.promise, h) ∈ s.settled := by
  unfold isSettled
  rw [decide_eq_true_eq, mem_map]
  constructor
  · rintro ⟨⟨p, h⟩, hmem, rfl⟩
    exact ⟨h, hmem⟩
  · rintro ⟨h, hmem⟩
    exact ⟨_, hmem, rfl⟩

theorem isSettled_settle :
    (s.settle items how).isSettled item = true ↔
      s.isSettled item = true ∨ ∃ i ∈ items, i.promise = item.promise := by
  rw [isSettled_iff, isSettled_iff]
  constructor
  · rintro ⟨h, hmem⟩
    rcases mem_settle.mp hmem with hmem | ⟨-, i, hi, heq, -⟩
    · exact .inl ⟨h, hmem⟩
    · exact .inr ⟨i, hi, heq⟩
  rintro (⟨h, hmem⟩ | ⟨i, hi, heq⟩)
  · exact ⟨h, mem_settle.mpr (.inl hmem)⟩
  cases hfree : s.isSettled i with
  | true =>
    obtain ⟨h, hmem⟩ := isSettled_iff.mp hfree
    exact ⟨h, mem_settle.mpr (.inl (heq ▸ hmem))⟩
  | false => exact ⟨how, mem_settle.mpr (.inr ⟨rfl, i, hi, heq, hfree⟩)⟩

end

/-! ## the ledger -/

theorem pending_of_queue {s : State} {queue : TerminalInputQueue} (h : s.queue = some queue) :
    s.pending = queue.pending := by
  unfold pending
  rw [h]

namespace State

/-- the inputs on their way: in flights, in the batch that has been taken out, and pending -/
def live (s : State) (extra : List QueuedTerminalInput) : List QueuedTerminalInput :=
  s.flights.flatMap Flight.batch ++ extra ++ s.pending

def unsentRuns (s : State) (runs : List InputRun) : List InputRun :=
  s.flights.flatMap Flight.rest ++ runs

end State

/-- the runs of a batch before `runs` are written -/
def Begun (s : State) (batch : List QueuedTerminalInput) (runs : List InputRun) : Prop :=
  ∃ before, splitInputRunsBySource batch = before ++ runs ∧ ∀ run ∈ before, run ∈ s.written

structure Ledger (s : State) (extra : List QueuedTerminalInput) (runs : List InputRun) : Prop where
  numbered : ∀ (k : Nat) (item : QueuedTerminalInput), s.enqueued[k]? = some item → item.promise = k
  settledKnown : ∀ p h, (p, h) ∈ s.settled → p < s.enqueued.length
  known : ∀ item ∈ s.live extra, item ∈ s.enqueued
  distinct : (s.live extra).Nodup
  unsettled : ∀ item ∈ s.live extra, s.isSettled item = false
  covered : ∀ item ∈ s.enqueued, s.isSettled item = true ∨ item ∈ s.live extra
  /-- an input that is pending or in a later run has not been handed over -/
  unsent : ∀ item, item ∈ s.pending ∨ (∃ run ∈ s.unsentRuns runs, item ∈ run.items) →
    item ∉ s.handedItems
  begun : ∀ flight ∈ s.flights, Begun s flight.batch (flight.run :: flight.rest)
  handedKnown : ∀ item ∈ s.handedItems, item ∈ s.enqueued
  sources : ∀ run ∈ s.handed, ∀ item ∈ run.items, item.source = run.source
  rejected : ∀ item ∈ s.enqueued, s.Rejected item →
    (∃ run ∈ s.failed, item ∈ run.items) ∨ item ∉ s.handedItems
  fulfilled : ∀ item ∈ s.enqueued, s.Fulfilled item →
    (∃ run ∈ s.written, item ∈ run.items) ∨ item ∈ s.cleared

namespace Ledger
variable {s : State} {extra : List QueuedTerminalInput} {runs : List InputRun} {index : Nat}
  {queue : Option TerminalInputQueue} {flight : Flight} {item : QueuedTerminalInput}

theorem same_promise (h : Ledger s extra runs) {i j : QueuedTerminalInput} (hi : i ∈ s.enqueued)
    (hj : j ∈ s.enqueued) (heq : i.promise = j.promise) : i = j := by
  obtain ⟨m, hm⟩ := mem_iff_getElem?.mp hi
  obtain ⟨n, hn⟩ := mem_iff_getElem?.mp hj
  have hmn : m = n := (h.numbered m i hm).symm.trans (heq.trans (h.numbered n j hn))
  subst hmn
  exact Option.some.inj (hm.symm.trans hn)

theorem withQueue (h : Ledger s extra runs) {queues drains : Nat} {drained : List Nat}
    {submits : List Submit} (hq : State.pending { s with queue := queue } = s.pending) :
    Ledger { s with
      queue := queue, queues := queues, drains := drains, drained := drained, submits := submits }
      extra runs := by
  have hlive : State.live { s with queue := queue } extra = s.live extra := by
    unfold live
    rw [hq]
  have hpending : ∀ item, item ∈ State.pending { s with queue := queue } → item ∈ s.pending :=
    fun item hitem => hq ▸ hitem
  exact ⟨h.numbered, h.settledKnown, fun item hi => h.known item (hlive ▸ hi), hlive ▸ h.distinct,
    fun item hi => h.unsettled item (hlive ▸ hi),
    fun item hi => (h.covered item hi).imp_right fun hi => hlive ▸ hi,
    fun item hi => h.unsent item (hi.imp_left (hpending item)), h.begun, h.handedKnown, h.sources,
    h.rejected, h.fulfilled⟩

theorem open_ (h : Ledger s [] []) {queue' : Option TerminalInputQueue}
    (hempty : State.pending { s with queue := queue' } = []) :
    Ledger { s with queue := queue' } s.pending (splitInputRunsBySource s.pending) := by
  have hlive : State.live { s with queue := queue' } s.pending = s.live [] := by
    unfold live
    rw [hempty, append_nil, append_nil]
  refine ⟨h.numbered, h.settledKnown, fun item hi => h.known item (hlive ▸ hi), hlive ▸ h.distinct,
    fun item hi => h.unsettled item (hlive ▸ hi),
    fun item hi => (h.covered item hi).imp_right fun hi => hlive ▸ hi, fun item hi => ?_, h.begun,
    h.handedKnown, h.sources, h.rejected, h.fulfilled⟩
  rcases hi with hi | ⟨run, hrun, hi⟩
  · rw [hempty] at hi
    cases hi
  rcases mem_append.mp hrun with hrun | hrun
  · exact h.unsent item (.inr ⟨run, mem_append_left _ hrun, hi⟩)
  · refine h.unsent item (.inl ?_)
    rw [← split_items s.pending]
    exact mem_flatMap_of_mem hrun hi

theorem take (h : Ledger s [] []) (hf : s.flights[index]? = some flight) :
    Ledger { s with flights := s.flights.eraseIdx index } flight.batch flight.rest := by
  obtain ⟨hlt, hget⟩ := List.getElem?_eq_some_iff.mp hf
  have hperm : (flight :: s.flights.eraseIdx index).Perm s.flights := by
    rw [← hget]
    exact getElem_cons_eraseIdx_perm hlt
  have hlive : (State.live { s with flights := s.flights.eraseIdx index } flight.batch).Perm
      (s.live []) := by
    unfold live
    rw [append_nil]
    refine List.Perm.append_right _ ?_
    refine perm_append_comm.trans ?_
    exact hperm.flatMap_right Flight.batch
  have hsub : ∀ f ∈ s.flights.eraseIdx index, f ∈ s.flights :=
    fun f hf => (eraseIdx_sublist s.flights index).subset hf
  refine ⟨h.numbered, h.settledKnown, fun item hi => h.known item (hlive.mem_iff.mp hi),
    hlive.nodup_iff.mpr h.distinct, fun item hi => h.unsettled item (hlive.mem_iff.mp hi),
    fun item hi => (h.covered item hi).imp_right hlive.mem_iff.mpr, fun item hi => ?_,
    fun f hf => h.begun f (hsub f hf), h.handedKnown, h.sources, h.rejected, h.fulfilled⟩
  refine h.unsent item (hi.imp_right ?_)
  rintro ⟨run, hrun, hi⟩
  refine ⟨run, mem_append_left _ ?_, hi⟩
  have hrests : (flight.rest ++ (s.flights.eraseIdx index).flatMap Flight.rest).Perm
      (s.flights.flatMap Flight.rest) := hperm.flatMap_right Flight.rest
  exact hrests.mem_iff.mp (perm_append_comm.mem_iff.mp hrun)

theorem wrote (h : Ledger s extra runs) (run : InputRun) :
    Ledger { s with written := s.written ++ [run] } extra runs := by
  refine ⟨h.numbered, h.settledKnown, h.known, h.distinct, h.unsettled, h.covered, h.unsent,
    fun flight hf => ?_, h.handedKnown, h.sources, h.rejected, fun item hi hfulfilled => ?_⟩
  · obtain ⟨before, hsplit, hbefore⟩ := h.begun flight hf
    exact ⟨before, hsplit, fun r hr => mem_append_left _ (hbefore r hr)⟩
  · refine (h.fulfilled item hi hfulfilled).imp_left ?_
    rintro ⟨r, hr, hi⟩
    exact ⟨r, mem_append_left _ hr, hi⟩

theorem settle (h : Ledger s extra runs) (how : Settlement)
    (hrejected : how = .rejected → ∀ item ∈ extra,
      (∃ run ∈ s.failed, item ∈ run.items) ∨ item ∉ s.handedItems)
    (hfulfilled : how = .fulfilled → ∀ item ∈ extra,
      (∃ run ∈ s.written, item ∈ run.items) ∨ item ∈ s.cleared) :
    Ledger (s.settle extra how) [] [] := by
  have hsub : ∀ item ∈ (s.settle extra how).live [], item ∈ s.live extra := by
    intro item hi
    unfold live at hi ⊢
    rw [append_nil] at hi
    rcases mem_append.mp hi with hi | hi
    · exact mem_append_left _ (mem_append_left _ hi)
    · exact mem_append_right _ hi
  have hextra : ∀ item ∈ extra, item ∈ s.enqueued := fun item hi =>
    h.known item (mem_append_left _ (mem_append_right _ hi))
  have hdisjoint : ∀ item ∈ (s.settle extra how).live [], item ∉ extra := by
    intro item hi hmem
    have hdistinct := h.distinct
    unfold live at hdistinct hi
    rw [append_nil] at hi
    rw [nodup_append, nodup_append] at hdistinct
    rcases mem_append.mp hi with hi | hi
    · exact hdistinct.1.2.2 item hi item hmem rfl
    · exact hdistinct.2.2 item (mem_append_right _ hmem) item hi rfl
  refine ⟨h.numbered, fun p o hp => ?_, fun item hi => h.known item (hsub item hi), ?_,
    fun item hi => ?_, fun item hi => ?_, fun item hi => h.unsent item ?_, h.begun, h.handedKnown,
    h.sources, fun item hi hr => ?_, fun item hi hr => ?_⟩
  · rcases mem_settle.mp hp with hp | ⟨-, item, hi, rfl, -⟩
    · exact h.settledKnown p o hp
    · obtain ⟨k, hk⟩ := mem_iff_getElem?.mp (hextra item hi)
      rw [h.numbered k item hk]
      exact (List.getElem?_eq_some_iff.mp hk).1
  · have hdistinct := h.distinct
    unfold live at hdistinct ⊢
    rw [append_nil]
    refine hdistinct.sublist ?_
    exact (sublist_append_left _ _).append (List.Sublist.refl _)
  · refine Bool.eq_false_iff.mpr fun hsettled => ?_
    rcases isSettled_settle.mp hsettled with hsettled | ⟨i, hi', heq⟩
    · rw [h.unsettled item (hsub item hi)] at hsettled
      cases hsettled
    · obtain rfl := h.same_promise (hextra i hi') (h.known item (hsub item hi)) heq
      exact hdisjoint i hi hi'
  · rcases h.covered item hi with hsettled | hlive
    · exact .inl (isSettled_settle.mpr (.inl hsettled))
    unfold live at hlive ⊢
    rw [append_nil]
    rcases mem_append.mp hlive with hlive | hlive
    · rcases mem_append.mp hlive with hlive | hlive
      · exact .inr (mem_append_left _ hlive)
      · exact .inl (isSettled_settle.mpr (.inr ⟨item, hlive, rfl⟩))
    · exact .inr (mem_append_right _ hlive)
  · refine hi.imp_right ?_
    rintro ⟨run, hrun, hi⟩
    rcases mem_append.mp hrun with hrun | hrun
    · exact ⟨run, mem_append_left _ hrun, hi⟩
    · cases hrun
  · rcases mem_settle.mp hr with hr | ⟨rfl, i, hi', heq, -⟩
    · exact h.rejected item hi hr
    · obtain rfl := h.same_promise (hextra i hi') hi heq
      exact hrejected rfl i hi'
  · rcases mem_settle.mp hr with hr | ⟨rfl, i, hi', heq, -⟩
    · exact h.fulfilled item hi hr
    · obtain rfl := h.same_promise (hextra i hi') hi heq
      exact hfulfilled rfl i hi'

theorem mem_batch {batch : List QueuedTerminalInput} {run : InputRun} {rest : List InputRun}
    (h : Begun s batch (run :: rest)) {r : InputRun} (hr : r ∈ run :: rest) (hi : item ∈ r.items) :
    item ∈ batch := by
  obtain ⟨before, hsplit, -⟩ := h
  rw [← split_items batch, hsplit, flatMap_append]
  exact mem_append_right _ (mem_flatMap_of_mem hr hi)

theorem hand {run : InputRun} {rest : List InputRun} (h : Ledger s extra (run :: rest)) (id : Nat)
    (hbegun : Begun s extra (run :: rest)) :
    Ledger { s with
      handed := s.handed ++ [run]
      flights := s.flights ++ [⟨id, extra, run, rest⟩] } [] [] := by
  have hlive : State.live { s with
      handed := s.handed ++ [run]
      flights := s.flights ++ [⟨id, extra, run, rest⟩] } [] = s.live extra := by
    show (s.flights ++ [_]).flatMap Flight.batch ++ [] ++ s.pending = _
    rw [flatMap_append, append_nil, flatMap_singleton]
    rfl
  have hdistinct := h.distinct
  unfold live at hdistinct
  rw [nodup_append, nodup_append] at hdistinct
  obtain ⟨⟨-, hextra, hflights⟩, -, hpending⟩ := hdistinct
  have hrun : ∀ item ∈ run.items, item ∈ extra := fun item hi =>
    mem_batch hbegun mem_cons_self hi
  have hitems : State.handedItems { s with
      handed := s.handed ++ [run]
      flights := s.flights ++ [⟨id, extra, run, rest⟩] } = s.handedItems ++ run.items := by
    show (s.handed ++ [run]).flatMap InputRun.items = _
    rw [flatMap_append, flatMap_singleton]
    rfl
  refine ⟨h.numbered, h.settledKnown, fun item hi => h.known item (hlive ▸ hi), hlive ▸ h.distinct,
    fun item hi => h.unsettled item (hlive ▸ hi),
    fun item hi => (h.covered item hi).imp_right fun hi => hlive ▸ hi, fun item hi => ?_,
    fun flight hf => ?_, fun item hi => ?_, fun r hr => ?_, fun item hi hr => ?_, h.fulfilled⟩
  · rw [hitems, mem_append, not_or]
    rcases hi with hi | ⟨r, hr, hi⟩
    · refine ⟨h.unsent item (.inl hi), fun hmem => ?_⟩
      exact hpending item (mem_append_right _ (hrun item hmem)) item hi rfl
    have hr : r ∈ (s.flights ++ [(⟨id, extra, run, rest⟩ : Flight)]).flatMap Flight.rest ++ [] := hr
    rw [append_nil, flatMap_append, flatMap_singleton] at hr
    rcases mem_append.mp hr with hr | hr
    · refine ⟨h.unsent item (.inr ⟨r, mem_append_left _ hr, hi⟩), fun hmem => ?_⟩
      obtain ⟨flight, hf, hrest⟩ := mem_flatMap.mp hr
      have hbatch := mem_batch (h.begun flight hf) (mem_cons_of_mem _ hrest) hi
      exact hflights item (mem_flatMap_of_mem hf hbatch) item (hrun item hmem) rfl
    have hlater : r ∈ s.unsentRuns (run :: rest) :=
      mem_append_right _ (mem_cons_of_mem _ hr)
    refine ⟨h.unsent item (.inr ⟨r, hlater, hi⟩), fun hmem => ?_⟩
    obtain ⟨before, hsplit, -⟩ := hbegun
    rw [← split_items extra, hsplit, flatMap_append, flatMap_cons,
      nodup_append, nodup_append] at hextra
    exact hextra.2.1.2.2 item hmem item (mem_flatMap_of_mem hr hi) rfl
  · rcases mem_append.mp hf with hf | hf
    · exact h.begun flight hf
    · obtain rfl := mem_singleton.mp hf
      exact hbegun
  · rw [hitems] at hi
    rcases mem_append.mp hi with hi | hi
    · exact h.handedKnown item hi
    · exact h.known item (mem_append_left _ (mem_append_right _ (hrun item hi)))
  · rcases mem_append.mp hr with hr | hr
    · exact h.sources r hr
    · obtain rfl := mem_singleton.mp hr
      obtain ⟨before, hsplit, -⟩ := hbegun
      exact split_source extra r (hsplit ▸ mem_append_right _ mem_cons_self)
  · rw [hitems, mem_append, not_or]
    refine (h.rejected item hi hr).imp_right fun hnot => ⟨hnot, fun hmem => ?_⟩
    -- what is handed over now is not settled
    have hlive := mem_append_left s.pending
      (mem_append_right (s.flights.flatMap Flight.batch) (hrun item hmem))
    have hfree := h.unsettled item hlive
    rw [(isSettled_iff (s := s)).mpr ⟨_, hr⟩] at hfree
    cases hfree

theorem finallyBlock (h : Ledger s [] []) (id : Nat) : Ledger (s.finallyBlock id) [] [] := by
  unfold State.finallyBlock
  split
  · exact h
  next current hq =>
  split
  · exact h
  have hpending := pending_of_queue hq
  split
  · exact h.withQueue hpending.symm
  next hnil =>
  refine h.withQueue ?_
  rw [hpending]
  exact (not_not.mp hnil).symm

theorem fulfil (h : Ledger s extra []) (hbegun : Begun s extra []) :
    Ledger (s.settle extra .fulfilled) [] [] := by
  refine h.settle .fulfilled nofun fun _ item hi => ?_
  obtain ⟨before, hsplit, hbefore⟩ := hbegun
  rw [← split_items extra, hsplit, append_nil] at hi
  obtain ⟨run, hrun, hi⟩ := mem_flatMap.mp hi
  exact .inl ⟨run, hbefore run hrun, hi⟩

theorem loop (h : Ledger s extra runs) (id : Nat) (hbegun : Begun s extra runs) :
    Ledger (s.loop id extra runs) [] [] := by
  cases runs with
  | nil => exact (h.fulfil hbegun).finallyBlock id
  | cons => exact h.hand id hbegun

theorem flush (h : Ledger s [] []) : Ledger s.flush [] [] := by
  unfold State.flush
  split
  · exact h
  next queue hq =>
  have hpending := pending_of_queue hq
  split
  · exact h
  split
  · exact h.withQueue hpending.symm
  · rw [← hpending]
    exact (h.open_ rfl).loop queue.id ⟨[], rfl, nofun⟩

theorem takeDone (h : Ledger s [] []) (hf : s.flights[index]? = some flight) :
    Ledger { s with
      flights := s.flights.eraseIdx index, written := s.written ++ [flight.run] }
        flight.batch flight.rest ∧
      Begun { s with
        flights := s.flights.eraseIdx index, written := s.written ++ [flight.run] }
        flight.batch flight.rest := by
  refine ⟨(h.take hf).wrote flight.run, ?_⟩
  obtain ⟨before, hsplit, hbefore⟩ := h.begun flight (mem_of_getElem? hf)
  refine ⟨before ++ [flight.run], by rw [hsplit, append_assoc]; rfl, fun run hrun => ?_⟩
  rcases mem_append.mp hrun with hrun | hrun
  · exact mem_append_left _ (hbefore run hrun)
  · exact mem_append_right _ hrun

theorem writeDone (h : Ledger s [] []) (index : Nat) : Ledger (s.writeDone index) [] [] := by
  unfold State.writeDone
  split
  · exact h
  · next flight hf =>
    obtain ⟨hdone, hbegun⟩ := h.takeDone hf
    exact hdone.loop flight.queue hbegun

theorem failedOne (h : Ledger s extra runs) (run : InputRun) :
    Ledger { s with failed := s.failed ++ [run] } extra runs := by
  refine ⟨h.numbered, h.settledKnown, h.known, h.distinct, h.unsettled, h.covered, h.unsent,
    h.begun, h.handedKnown, h.sources, fun item hi hr => ?_, h.fulfilled⟩
  refine (h.rejected item hi hr).imp_left ?_
  rintro ⟨r, hr, hi⟩
  exact ⟨r, mem_append_left _ hr, hi⟩

theorem takeFailed (h : Ledger s [] []) (hf : s.flights[index]? = some flight)
    (hfirst : flight.run :: flight.rest = splitInputRunsBySource flight.batch) :
    Ledger (State.settle { s with
      flights := s.flights.eraseIdx index, failed := s.failed ++ [flight.run] }
      flight.batch .rejected) [] [] := by
  have htaken := h.take hf
  refine (htaken.failedOne flight.run).settle .rejected (fun _ item hi => ?_) nofun
  rw [← split_items flight.batch, ← hfirst] at hi
  obtain ⟨run, hrun, hi⟩ := mem_flatMap.mp hi
  rcases mem_cons.mp hrun with rfl | hrun
  · exact .inl ⟨_, mem_append_right _ mem_cons_self, hi⟩
  · exact .inr (htaken.unsent item (.inr ⟨run, mem_append_right _ hrun, hi⟩))

theorem writeFailed (h : Ledger s [] [])
    (hfirst : ∀ flight ∈ s.flights[index]?,
      flight.run :: flight.rest = splitInputRunsBySource flight.batch) :
    Ledger (s.writeFailed index) [] [] := by
  unfold State.writeFailed
  split
  · exact h
  · next flight hf => exact (h.takeFailed hf (hfirst flight hf)).finallyBlock flight.queue

theorem clearedMore (h : Ledger s extra runs) (items : List QueuedTerminalInput) (clears : Nat) :
    Ledger { s with cleared := s.cleared ++ items, clears := clears } extra runs :=
  ⟨h.numbered, h.settledKnown, h.known, h.distinct, h.unsettled, h.covered, h.unsent, h.begun,
    h.handedKnown, h.sources, h.rejected,
    fun item hi hr => (h.fulfilled item hi hr).imp_right fun hi => mem_append_left _ hi⟩

section
variable (h : Ledger s [] [])
include h

theorem clear : Ledger s.clear [] [] := by
  unfold State.clear
  split
  · exact h
  next queue hq =>
  have hpending := pending_of_queue hq
  have hmore := h.clearedMore s.pending (s.clears + 1)
  have hopen : Ledger { s with
      cleared := s.cleared ++ s.pending, clears := s.clears + 1, queue := none }
      s.pending _ := hmore.open_ rfl
  have hsettled := hopen.settle .fulfilled nofun fun _ item hi => .inr (mem_append_right _ hi)
  rw [← hpending]
  exact hsettled.withQueue rfl

theorem arrive (hitem : item.promise = s.enqueued.length)
    (hpending : State.pending { s with queue := queue } = s.pending ++ [item]) :
    Ledger { s with enqueued := s.enqueued ++ [item], queue := queue } [] [] := by
  have hold : ∀ i ∈ s.enqueued, i ≠ item := by
    rintro i hi rfl
    obtain ⟨k, hk⟩ := mem_iff_getElem?.mp hi
    have hlt := (List.getElem?_eq_some_iff.mp hk).1
    have heq := h.numbered k i hk
    omega
  have hlive : State.live { s with enqueued := s.enqueued ++ [item], queue := queue } [] =
      s.live [] ++ [item] := by
    unfold live
    rw [append_assoc (s.flights.flatMap Flight.batch ++ []), ← hpending]
    rfl
  have hfree : s.isSettled item = false := by
    refine Bool.eq_false_iff.mpr fun hsettled => ?_
    obtain ⟨o, ho⟩ := isSettled_iff.mp hsettled
    have hlt := h.settledKnown _ _ ho
    omega
  have hunsettled : ∀ o, (item.promise, o) ∉ s.settled := by
    intro o ho
    rw [(isSettled_iff (s := s)).mpr ⟨o, ho⟩] at hfree
    cases hfree
  refine ⟨fun k i hk => ?_, fun p o hp => ?_, fun i hi => ?_, ?_, fun i hi => ?_, fun i hi => ?_,
    fun i hi => ?_, h.begun, fun i hi => mem_append_left _ (h.handedKnown i hi), h.sources,
    fun i hi hr => ?_, fun i hi hr => ?_⟩
  · rcases Nat.lt_trichotomy k s.enqueued.length with hlt | heq | hgt
    · exact h.numbered k i (by rwa [getElem?_append_left hlt] at hk)
    · subst heq
      rw [getElem?_concat_length] at hk
      rw [← Option.some.inj hk, hitem]
    · have hlt := (List.getElem?_eq_some_iff.mp hk).1
      rw [length_append, length_singleton] at hlt
      omega
  · have hlt := h.settledKnown p o hp
    show p < (s.enqueued ++ [item]).length
    rw [length_append]
    omega
  · rw [hlive] at hi
    rcases mem_append.mp hi with hi | hi
    · exact mem_append_left _ (h.known i hi)
    · exact mem_append_right _ hi
  · rw [hlive, nodup_append]
    refine ⟨h.distinct, nodup_cons.mpr ⟨not_mem_nil, nodup_nil⟩, fun i hi j hj => ?_⟩
    rw [mem_singleton.mp hj]
    exact hold i (h.known i hi)
  · rw [hlive] at hi
    rcases mem_append.mp hi with hi | hi
    · exact h.unsettled i hi
    · rw [mem_singleton.mp hi]
      exact hfree
  · rw [hlive]
    rcases mem_append.mp hi with hi | hi
    · exact (h.covered i hi).imp_right fun hi => mem_append_left _ hi
    · exact .inr (mem_append_right _ hi)
  · rcases hi with hi | hi
    · have hi : i ∈ s.pending ++ [item] := hpending ▸ hi
      rcases mem_append.mp hi with hi | hi
      · exact h.unsent i (.inl hi)
      · rw [mem_singleton.mp hi]
        exact fun hmem => hold item (h.handedKnown item hmem) rfl
    · exact h.unsent i (.inr hi)
  · rcases mem_append.mp hi with hi | hi
    · exact h.rejected i hi hr
    · rw [mem_singleton.mp hi] at hr
      exact absurd hr (hunsettled _)
  · rcases mem_append.mp hi with hi | hi
    · exact h.fulfilled i hi hr
    · rw [mem_singleton.mp hi] at hr
      exact absurd hr (hunsettled _)

theorem enqueue (data : JsString) (source : TerminalWriteSource) :
    Ledger (s.enqueue data source) [] [] := by
  unfold State.enqueue
  split
  · exact h
  dsimp only
  split
  · next queue hq =>
    refine h.arrive rfl ?_
    rw [pending_of_queue hq]
    rfl
  next hq =>
  have hnil : s.pending = [] := by
    unfold pending
    rw [hq]
  have harrived : Ledger { s with
      enqueued := s.enqueued ++ [⟨s.enqueued.length, data, source⟩]
      queue := some ⟨s.queues, [⟨s.enqueued.length, data, source⟩], true, false, []⟩ } [] [] := by
    refine h.arrive rfl ?_
    rw [hnil]
    rfl
  exact harrived.withQueue rfl

theorem drain : Ledger s.drain [] [] := by
  unfold State.drain
  dsimp only
  split
  · exact h.withQueue rfl
  next queue hq =>
  have hpending := pending_of_queue hq
  have hflushed : Ledger (if queue.timer then
      State.flush { s with drains := s.drains + 1, queue := some { queue with timer := false } }
      else { s with drains := s.drains + 1 }) [] [] := by
    split
    · have htimer : Ledger { s with
          drains := s.drains + 1, queue := some { queue with timer := false } } [] [] :=
        h.withQueue hpending.symm
      exact htimer.flush
    · exact h.withQueue rfl
  generalize (if queue.timer then
      State.flush { s with drains := s.drains + 1, queue := some { queue with timer := false } }
      else { s with drains := s.drains + 1 }) = t at hflushed
  split
  · exact hflushed.withQueue rfl
  next current hcurrent =>
  have hpending := pending_of_queue hcurrent
  split
  · next hidle =>
    rw [Bool.and_eq_true, List.isEmpty_iff] at hidle
    exact hflushed.withQueue (hpending.trans hidle.2).symm
  · exact hflushed.withQueue hpending.symm

theorem submit : Ledger s.submit [] [] := h.drain.withQueue rfl

theorem submitStarts (index : Nat) : Ledger (s.submitStarts index) [] [] := by
  unfold State.submitStarts
  split
  · exact h
  · split
    · exact h.withQueue rfl
    · exact h

theorem timerFires : Ledger s.timerFires [] [] := by
  unfold State.timerFires
  split
  · exact h
  · split
    · exact h.flush
    · exact h

end

end Ledger

theorem ledger_init : Ledger init [] [] where
  numbered k item h := by simp [init] at h
  settledKnown p h hp := by simp [init] at hp
  known item h := by simp [init, live, pending] at h
  distinct := nodup_nil
  unsettled item h := by simp [init, live, pending] at h
  covered item h := by simp [init] at h
  unsent item h := by simp [init, unsentRuns, pending] at h
  begun flight h := by simp [init] at h
  handedKnown item h := by simp [init, handedItems] at h
  sources run h := by simp [init] at h
  rejected item h := by simp [init] at h
  fulfilled item h := by simp [init] at h

end CcPanes.InputQueue

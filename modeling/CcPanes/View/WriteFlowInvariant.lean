import CcPanes.View.WriteFlowControl

/-!
# The invariant of the flow control
-/

namespace CcPanes.WriteFlow
open List (append_assoc append_nil filter_append length_append map_append map_cons mem_append
  mem_cons mem_cons_of_mem mem_cons_self mem_singleton)
open Run State

/-! ## what is under way -/

def inFlight (s : State) : List PendingWrite :=
  (s.calls.filter (!·.callbackCompleted)).map (·.entry)

def line (s : State) : List PendingWrite := s.calls.map (·.entry) ++ s.queue

def openList (s : State) : List Nat := (inFlight s ++ s.queue).map (·.promise)

/-- the `onWritten` of this write is running -/
def Writing (s : State) (promise : Nat) : Prop :=
  ∃ entry, .onWritten entry ∈ s.stack ∧ entry.promise = promise

def Handed (s : State) (promise : Nat) : Prop := ∃ call ∈ s.calls, call.entry.promise = promise

def chars (entries : List PendingWrite) : Int := (entries.map PendingWrite.chars).sum

theorem chars_append (l l' : List PendingWrite) : chars (l ++ l') = chars l + chars l' := by
  rw [chars, map_append, List.sum_append]
  rfl

theorem chars_cons (entry : PendingWrite) (l : List PendingWrite) :
    chars (entry :: l) = entry.chars + chars l := rfl

/-- `settling` are the promises that are about to be settled -/
structure Inv (o : Settings) (written : List JsString) (settling : List Nat) (s : State) : Prop where
  queuedChars : s.queuedChars = chars s.queue
  inFlightChars : s.inFlightChars = chars (inFlight s)
  inFlightWrites : s.inFlightWrites = (inFlight s).length
  blocked : s.blocked = true → o.lowWatermark < s.pendingCallbacks
  count : s.writeCalls = written.length
  order : ((line s).map (·.promise)).Pairwise (· < ·)
  data : ∀ entry ∈ line s, written[entry.promise]? = some entry.data
  once : (s.settled.map Prod.fst).Nodup
  known : ∀ i, s.isSettled i = true → i < s.writeCalls
  handed : ∀ p ∈ s.settled, p.2 = .rejected ∨ Handed s p.1
  called : ∀ i, Writing s i → Handed s i
  unsettled : ∀ i < s.writeCalls, s.isSettled i = false →
    i ∈ openList s ∨ Writing s i ∨ i ∈ settling
  opens : ∀ i ∈ openList s, s.isSettled i = false
  closed : ∀ i, Writing s i ∨ i ∈ settling → i ∉ openList s

theorem inFlight_sublist (s : State) : (inFlight s).Sublist (s.calls.map (·.entry)) :=
  List.filter_sublist.map _

theorem openList_sublist (s : State) :
    (openList s).Sublist ((line s).map (·.promise)) :=
  ((inFlight_sublist s).append (List.Sublist.refl _)).map _

theorem Inv.nodup {o : Settings} {written : List JsString} {settling : List Nat} {s : State}
    (h : Inv o written settling s) : (openList s).Nodup :=
  (h.order.sublist (openList_sublist s)).imp fun hlt => Nat.ne_of_lt hlt

theorem Inv.lt_of_open {o : Settings} {written : List JsString} {settling : List Nat} {s : State}
    (h : Inv o written settling s) {entry : PendingWrite} (hmem : entry ∈ line s) :
    entry.promise < s.writeCalls := by
  rw [h.count]
  exact (List.getElem?_eq_some_iff.mp (h.data entry hmem)).1

theorem inv_create (o : Settings) : Inv o [] [] createTerminalWriteFlowControl where
  queuedChars := rfl
  inFlightChars := rfl
  inFlightWrites := rfl
  blocked := nofun
  count := rfl
  order := List.Pairwise.nil
  data := nofun
  once := List.nodup_nil
  known := nofun
  handed := nofun
  called := nofun
  unsettled := nofun
  opens := nofun
  closed := nofun

section
variable {o : Settings} {written : List JsString} {settling : List Nat} {s : State}
  {call : WriteCall} {index : Nat} {entry : PendingWrite} {rest : List PendingWrite}
  {stack : List Frame}

/-! ## the pump -/

theorem Inv.setPumping (h : Inv o written settling s) (pumping : Bool) :
    Inv o written settling { s with pumping := pumping } :=
  { h with }

theorem inFlight_take (entry : PendingWrite) (rest : List PendingWrite) :
    inFlight (take o s entry rest) = inFlight s ++ [entry] := by
  rw [inFlight, take]
  dsimp only
  rw [filter_append, map_append]
  rfl

theorem openList_take (hq : s.queue = entry :: rest) :
    openList (take o s entry rest) = openList s := by
  rw [openList, inFlight_take, openList, hq, append_assoc]
  rfl

theorem line_take (hq : s.queue = entry :: rest) : line (take o s entry rest) = line s := by
  rw [line, line, hq, take]
  dsimp only
  rw [map_append, append_assoc]
  rfl

theorem writing_take (entry : PendingWrite) (rest : List PendingWrite) (i : Nat) :
    Writing (take o s entry rest) i ↔ Writing s i := by
  refine exists_congr fun e => and_congr_left fun _ => ?_
  rw [take, mem_cons]
  exact or_iff_right nofun

theorem Handed.take {i : Nat} (h : Handed s i) (entry : PendingWrite) (rest : List PendingWrite) :
    Handed (take o s entry rest) i := by
  obtain ⟨call, hmem, hi⟩ := h
  exact ⟨call, List.mem_append_left _ hmem, hi⟩

theorem Inv.take (h : Inv o written settling s) (hq : s.queue = entry :: rest)
    (hb : s.blocked = false) :
    Inv o written settling (take o s entry rest) := { h with
  queuedChars := by
    have hsum := h.queuedChars
    rw [hq, chars_cons] at hsum
    show s.queuedChars - entry.chars = chars rest
    omega
  inFlightChars := by
    rw [inFlight_take, chars_append]
    show s.inFlightChars + entry.chars = _
    rw [h.inFlightChars, chars_cons]
    rfl
  inFlightWrites := by
    rw [inFlight_take, length_append]
    show s.inFlightWrites + 1 = _
    rw [h.inFlightWrites]
    rfl
  blocked := by
    have hlow := o.low_lt_high
    intro hblocked
    rw [State.take] at hblocked ⊢
    dsimp only at hblocked ⊢
    generalize (o.enabled && decide (o.bytesThreshold ≤ s.bytesWritten + entry.chars)) = tracks
      at hblocked ⊢
    cases tracks with
    | false => cases hb.symm.trans hblocked
    | true =>
      rw [if_pos rfl]
      by_cases hhigh : o.highWatermark ≤ s.pendingCallbacks + 1
      · omega
      · rw [if_neg fun hc => hhigh hc.2, hb] at hblocked
        cases hblocked
  order := by
    rw [line_take hq]
    exact h.order
  data := by
    rw [line_take hq]
    exact h.data
  handed p hp := (h.handed p hp).imp_right fun hh => hh.take entry rest
  called i hi := (h.called i ((writing_take entry rest i).mp hi)).take entry rest
  unsettled := by
    intro i hi hs
    rw [openList_take hq, writing_take]
    exact h.unsettled i hi hs
  opens := by
    rw [openList_take hq]
    exact h.opens
  closed := by
    intro i hi
    rw [writing_take] at hi
    rw [openList_take hq]
    exact h.closed i hi }

theorem Inv.finish (h : Inv o written settling s) : Inv o written settling (finish o s) := by
  unfold State.finish
  dsimp only
  split
  · exact h.setPumping false
  next entry rest hq =>
  split
  · exact h.setPumping false
  · next hb => exact (h.setPumping true).take hq (by simpa using hb)

theorem Inv.loop (h : Inv o written settling s) : Inv o written settling (loop o s) := by
  unfold State.loop
  split
  · exact h.finish
  next entry rest hq =>
  split
  · exact h.finish
  · next hb => exact h.take hq (by simpa using hb)

theorem Inv.pump (h : Inv o written settling s) : Inv o written settling (pump o s) := by
  unfold State.pump
  split
  · exact h
  · exact (h.setPumping true).loop

theorem isSettled_settle (promise i : Nat) (settlement : Settlement) :
    (s.settle promise settlement).isSettled i = (s.isSettled i || decide (i = promise)) := by
  unfold State.settle
  by_cases hp : s.isSettled promise = true
  · rw [if_pos hp]
    by_cases hi : i = promise
    · rw [hi, hp]
      rfl
    · rw [decide_eq_false hi, Bool.or_false]
  · rw [if_neg hp, Bool.eq_iff_iff, Bool.or_eq_true, isSettled, isSettled]
    simp only [map_append, map_cons, List.map_nil, mem_append, mem_singleton, decide_eq_true_eq]

theorem settle_other (promise : Nat) (settlement : Settlement) :
    ∃ settled, s.settle promise settlement = { s with settled := settled } := by
  unfold State.settle
  split
  · exact ⟨s.settled, rfl⟩
  · exact ⟨_, rfl⟩

theorem Inv.settle {promise : Nat} (h : Inv o written (promise :: settling) s)
    (hlt : promise < s.writeCalls) {settlement : Settlement}
    (hhanded : settlement = .rejected ∨ Handed s promise) :
    Inv o written settling (s.settle promise settlement) := by
  have hsettled := fun i => isSettled_settle (s := s) promise i settlement
  have honce : ((s.settle promise settlement).settled.map Prod.fst).Nodup := by
    unfold State.settle
    split
    · exact h.once
    next hp =>
    rw [map_append]
    refine List.nodup_append.mpr ⟨h.once, List.pairwise_singleton _ _, ?_⟩
    rintro i hi j hj rfl
    rw [List.map_singleton, mem_singleton] at hj
    rw [hj] at hi
    exact hp (decide_eq_true hi)
  have hknown : ∀ p ∈ (s.settle promise settlement).settled, p ∈ s.settled ∨
      p = (promise, settlement) := by
    intro p hp
    unfold State.settle at hp
    split at hp
    · exact .inl hp
    · exact (mem_append.mp hp).imp_right mem_singleton.mp
  obtain ⟨settled, hs⟩ := settle_other (s := s) promise settlement
  rw [hs] at honce hknown hsettled ⊢
  refine { h with
    once := honce, known := ?_, handed := ?_, unsettled := ?_, opens := ?_, closed := ?_ }
  · intro i hi
    rw [hsettled, Bool.or_eq_true, decide_eq_true_iff] at hi
    rcases hi with hi | rfl
    · exact h.known i hi
    · exact hlt
  · intro p hp
    rcases hknown p hp with hp | rfl
    · exact h.handed p hp
    · exact hhanded
  · intro i hi hi'
    rw [hsettled, Bool.or_eq_false_iff, decide_eq_false_iff_not] at hi'
    rcases h.unsettled i hi hi'.1 with ho | hw | hmem
    · exact .inl ho
    · exact .inr (.inl hw)
    · exact .inr (.inr ((mem_cons.mp hmem).resolve_left hi'.2))
  · intro i hi
    have hne : i ≠ promise := by
      rintro rfl
      exact h.closed i (.inr mem_cons_self) hi
    rw [hsettled, decide_eq_false hne, Bool.or_false]
    exact h.opens i hi
  · intro i hi
    exact h.closed i (hi.imp_right (mem_cons_of_mem promise))

/-! ## the end of a write -/

theorem Inv.release (h : Inv o written settling s) :
    Inv o written settling (s.release o) := by
  refine { h with blocked := ?_ }
  intro hblocked
  unfold State.release at hblocked ⊢
  dsimp only at hblocked ⊢
  split at hblocked
  · cases hblocked
  next hnot =>
  have hlow : ¬ max 0 (s.pendingCallbacks - 1) ≤ o.lowWatermark :=
    fun hle => hnot ⟨hblocked, hle⟩
  omega

theorem calls_split (hcall : s.calls[index]? = some call) :
    ∃ before behind, s.calls = before ++ call :: behind ∧ (s.land index call).calls =
      before ++ { call with callbackCompleted := true } :: behind := by
  obtain ⟨hlt, hget⟩ := List.getElem?_eq_some_iff.mp hcall
  refine ⟨s.calls.take index, s.calls.drop (index + 1), ?_, ?_⟩
  · rw [← hget, List.getElem_cons_drop, List.take_append_drop]
  · exact List.set_eq_take_append_cons_drop.trans (if_pos hlt)

theorem entries_land (hcall : s.calls[index]? = some call) :
    (s.land index call).calls.map (·.entry) = s.calls.map (·.entry) := by
  obtain ⟨before, behind, hcalls, hland⟩ := calls_split hcall
  rw [hcalls, hland, map_append, map_append]
  rfl

theorem inFlight_land (hcall : s.calls[index]? = some call)
    (hflying : call.callbackCompleted = false) :
    ∃ before behind, inFlight s = before ++ call.entry :: behind ∧
      inFlight (s.land index call) = before ++ behind := by
  obtain ⟨before, behind, hcalls, hland⟩ := calls_split hcall
  refine ⟨(before.filter (!·.callbackCompleted)).map (·.entry),
    (behind.filter (!·.callbackCompleted)).map (·.entry), ?_, ?_⟩
  · rw [inFlight, hcalls, filter_append, List.filter_cons_of_pos (by rw [hflying]; rfl),
      map_append, map_cons]
  · rw [inFlight, hland, filter_append, List.filter_cons_of_neg (by simp), map_append]

theorem openList_land (hcall : s.calls[index]? = some call)
    (hflying : call.callbackCompleted = false) :
    (openList s).Perm (call.entry.promise :: openList (s.land index call)) := by
  obtain ⟨before, behind, hfly, hfly'⟩ := inFlight_land hcall hflying
  rw [openList, openList, hfly, hfly', append_assoc, append_assoc, List.cons_append]
  exact List.perm_middle.map _

theorem handed_iff (i : Nat) : Handed s i ↔ i ∈ (s.calls.map (·.entry)).map (·.promise) := by
  simp [Handed]

theorem Inv.land (h : Inv o written settling s) (hcall : s.calls[index]? = some call)
    (hflying : call.callbackCompleted = false) :
    Inv o written (call.entry.promise :: settling) (s.land index call) := by
  obtain ⟨before, behind, hfly, hfly'⟩ := inFlight_land hcall hflying
  have hentries := entries_land hcall
  have hline : line (s.land index call) = line s := by
    rw [line, line, hentries]
    rfl
  have hhanded : ∀ i, Handed (s.land index call) i ↔ Handed s i := by
    intro i
    rw [handed_iff, handed_iff, hentries]
  have hperm := openList_land hcall hflying
  have hopen : ∀ i, i ∈ openList s ↔ i = call.entry.promise ∨ i ∈ openList (s.land index call) := by
    intro i
    rw [hperm.mem_iff, mem_cons]
  have hnot : call.entry.promise ∉ openList (s.land index call) :=
    (List.nodup_cons.mp (hperm.nodup_iff.mp h.nodup)).1
  refine { h with
    inFlightChars := ?_, inFlightWrites := ?_, order := ?_, data := ?_, handed := ?_, called := ?_
    unsettled := ?_, opens := ?_, closed := ?_ }
  · have hsum := h.inFlightChars
    rw [hfly, chars_append, chars_cons] at hsum
    rw [hfly', chars_append]
    show s.inFlightChars - call.entry.chars = _
    omega
  · have hsum := h.inFlightWrites
    rw [hfly, length_append, List.length_cons] at hsum
    rw [hfly', length_append]
    show s.inFlightWrites - 1 = _
    omega
  · rw [hline]
    exact h.order
  · rw [hline]
    exact h.data
  · intro p hp
    rw [hhanded]
    exact h.handed p hp
  · intro i hi
    rw [hhanded]
    exact h.called i hi
  · intro i hi hs
    rcases h.unsettled i hi hs with ho | hw | hmem
    · rcases (hopen i).mp ho with rfl | ho
      · exact .inr (.inr mem_cons_self)
      · exact .inl ho
    · exact .inr (.inl hw)
    · exact .inr (.inr (mem_cons_of_mem _ hmem))
  · intro i hi
    exact h.opens i ((hopen i).mpr (.inr hi))
  · rintro i (hw | hmem)
    · exact fun hi => h.closed i (.inl hw) ((hopen i).mpr (.inr hi))
    · rcases mem_cons.mp hmem with rfl | hmem
      · exact hnot
      · exact fun hi => h.closed i (.inr hmem) ((hopen i).mpr (.inr hi))

/-! ## the steps -/

theorem Inv.pushWritten (h : Inv o written (entry.promise :: settling) s)
    (hhanded : Handed s entry.promise) :
    Inv o written settling { s with stack := .onWritten entry :: s.stack } := by
  have hwriting : ∀ i, Writing { s with stack := .onWritten entry :: s.stack } i ↔
      entry.promise = i ∨ Writing s i := by
    intro i
    simp [Writing, or_and_right, exists_or]
  refine { h with called := ?_, unsettled := ?_, closed := ?_ }
  · intro i hi
    rcases (hwriting i).mp hi with rfl | hw
    · exact hhanded
    · exact h.called i hw
  · intro i hi hs
    rcases h.unsettled i hi hs with ho | hw | hmem
    · exact .inl ho
    · exact .inr (.inl ((hwriting i).mpr (.inr hw)))
    · rcases mem_cons.mp hmem with rfl | hmem
      · exact .inr (.inl ((hwriting _).mpr (.inl rfl)))
      · exact .inr (.inr hmem)
  · rintro i (hi | hmem)
    · rcases (hwriting i).mp hi with rfl | hw
      · exact h.closed _ (.inr mem_cons_self)
      · exact h.closed i (.inl hw)
    · exact h.closed i (.inr (mem_cons_of_mem _ hmem))

theorem Inv.pop (h : Inv o written settling s) {frame : Frame} (hstack : s.stack = frame :: stack)
    (promises : List Nat)
    (hpromises : ∀ i, (∃ entry, frame = .onWritten entry ∧ entry.promise = i) ↔ i ∈ promises) :
    Inv o written (promises ++ settling) { s with stack := stack } := by
  have hwriting : ∀ i, Writing s i ↔ i ∈ promises ∨ Writing { s with stack := stack } i := by
    intro i
    rw [← hpromises i]
    simp [Writing, hstack, or_and_right, exists_or, eq_comm]
  refine { h with called := ?_, unsettled := ?_, closed := ?_ }
  · exact fun i hi => h.called i ((hwriting i).mpr (.inr hi))
  · intro i hi hs
    rw [mem_append]
    rcases h.unsettled i hi hs with ho | hw | hmem
    · exact .inl ho
    · rcases (hwriting i).mp hw with hp | hw
      · exact .inr (.inr (.inl hp))
      · exact .inr (.inl hw)
    · exact .inr (.inr (.inr hmem))
  · intro i hi
    rw [mem_append] at hi
    rcases hi with hw | hp | hmem
    · exact h.closed i (.inl ((hwriting i).mpr (.inr hw)))
    · exact h.closed i (.inl ((hwriting i).mpr (.inl hp)))
    · exact h.closed i (.inr hmem)

theorem Inv.lt_of_handed (h : Inv o written settling s) {i : Nat} (hi : Handed s i) :
    i < s.writeCalls := by
  obtain ⟨call, hmem, rfl⟩ := hi
  exact h.lt_of_open (List.mem_append_left _ (List.mem_map_of_mem hmem))

theorem Inv.landed (h : Inv o written settling s)
    (hcall : s.calls[index]? = some call) (hflying : call.callbackCompleted = false)
    {t : State} (ht : t = if call.shouldTrackCallback then (s.land index call).release o
      else s.land index call) :
    Inv o written (call.entry.promise :: settling) t ∧ Handed t call.entry.promise := by
  have hland := h.land hcall hflying
  have hhanded : Handed (s.land index call) call.entry.promise := by
    rw [handed_iff, entries_land hcall]
    exact List.mem_map_of_mem (List.mem_map_of_mem (List.mem_of_getElem? hcall))
  subst ht
  split
  · exact ⟨hland.release, hhanded⟩
  · exact ⟨hland, hhanded⟩

theorem Inv.complete (h : Inv o written [] s) (index : Nat) :
    Inv o written [] (complete o s index) := by
  unfold State.complete
  split
  · exact h
  next call hcall =>
  by_cases hdone : call.callbackCompleted = true
  · rw [if_pos hdone]
    exact h
  rw [if_neg hdone]
  obtain ⟨hland, hhanded⟩ := h.landed hcall (by simpa using hdone) rfl
  dsimp only
  generalize (if call.shouldTrackCallback = true then _ else _) = t at hland hhanded ⊢
  split
  · exact hland.pushWritten hhanded
  · exact (hland.settle (hland.lt_of_handed hhanded) (.inr hhanded)).pump

theorem Inv.settlingOf (h : Inv o written settling s) (hcall : s.calls[index]? = some call)
    (hdone : call.callbackCompleted = true) : Inv o written (call.entry.promise :: settling) s := by
  obtain ⟨before, behind, hcalls, -⟩ := calls_split hcall
  have hline : (line s).map (·.promise) = before.map (·.entry.promise) ++
      call.entry.promise :: (behind.map (·.entry.promise) ++ s.queue.map (·.promise)) := by
    simp [line, hcalls, Function.comp_def]
  have hopen : openList s = (before.filter (!·.callbackCompleted)).map (·.entry.promise) ++
      ((behind.filter (!·.callbackCompleted)).map (·.entry.promise) ++
        s.queue.map (·.promise)) := by
    simp [openList, inFlight, hcalls, hdone, Function.comp_def]
  have hnodup : ((line s).map (·.promise)).Nodup := h.order.imp fun hlt => Nat.ne_of_lt hlt
  rw [hline, List.perm_middle.nodup_iff, List.nodup_cons] at hnodup
  have hnot : call.entry.promise ∉ openList s := by
    rw [hopen]
    intro hmem
    refine hnodup.1 (List.Sublist.subset ?_ hmem)
    exact (List.filter_sublist.map _).append ((List.filter_sublist.map _).append (.refl _))
  refine { h with unsettled := ?_, closed := ?_ }
  · intro i hi hs
    exact (h.unsettled i hi hs).imp_right fun hw => hw.imp_right (mem_cons_of_mem _)
  rintro i (hw | hmem)
  · exact h.closed i (.inl hw)
  · rcases mem_cons.mp hmem with rfl | hmem
    · exact hnot
    · exact h.closed i (.inr hmem)

theorem Inv.failed (h : Inv o written [] s) (index : Nat) :
    Inv o written [] (failed o s index) := by
  unfold State.failed
  split
  · exact h
  next call hcall =>
  have hlt : call.entry.promise < s.writeCalls :=
    h.lt_of_handed ⟨call, List.mem_of_getElem? hcall, rfl⟩
  by_cases hdone : call.callbackCompleted = true
  · rw [if_pos hdone]
    exact (h.settlingOf hcall hdone).settle hlt (.inl rfl)
  rw [if_neg hdone]
  have hland := h.land hcall (by simpa using hdone)
  have hfailed : Inv o written [call.entry.promise]
      { s.land index call with failedWrites := s.failedWrites + 1 } := { hland with }
  dsimp only
  split
  · exact hfailed.release.settle hlt (.inl rfl)
  · exact hfailed.settle hlt (.inl rfl)

theorem Inv.write (h : Inv o written [] s) (data : JsString) (onWritten : Bool) :
    Inv o (written ++ [data]) [] (write o s data onWritten) := by
  refine Inv.pump ?_
  have hline : line { s with
      queuedChars := s.queuedChars + data.length
      receivedChars := s.receivedChars + data.length
      writeCalls := s.writeCalls + 1
      queue := s.queue ++ [⟨s.writeCalls, data, onWritten⟩] } =
      line s ++ [⟨s.writeCalls, data, onWritten⟩] := (append_assoc ..).symm
  have hopen : openList { s with
      queuedChars := s.queuedChars + data.length
      receivedChars := s.receivedChars + data.length
      writeCalls := s.writeCalls + 1
      queue := s.queue ++ [⟨s.writeCalls, data, onWritten⟩] } = openList s ++ [s.writeCalls] := by
    rw [openList, openList, ← append_assoc, map_append]
    rfl
  refine { h with
    queuedChars := ?_, count := ?_, order := ?_, data := ?_, known := ?_, unsettled := ?_
    opens := ?_, closed := ?_ }
  · rw [chars_append, ← h.queuedChars]
    rfl
  · rw [length_append, ← h.count]
    rfl
  · rw [hline, map_append, List.pairwise_append]
    refine ⟨h.order, List.pairwise_singleton _ _, ?_⟩
    intro i hi j hj
    obtain ⟨entry, hmem, rfl⟩ := List.mem_map.mp hi
    rw [List.map_singleton, mem_singleton] at hj
    rw [hj]
    exact h.lt_of_open hmem
  · rw [hline]
    intro entry hmem
    rcases mem_append.mp hmem with hmem | hmem
    · have hdata := h.data entry hmem
      have hlt := (List.getElem?_eq_some_iff.mp hdata).1
      rw [List.getElem?_append_left hlt, hdata]
    · obtain rfl := mem_singleton.mp hmem
      dsimp only
      rw [h.count, List.getElem?_concat_length]
  · exact fun i hi => Nat.lt_succ_of_lt (h.known i hi)
  · intro i hi hs
    rw [hopen, mem_append, mem_singleton]
    rcases Nat.lt_succ_iff_lt_or_eq.mp hi with hi | rfl
    · exact (h.unsettled i hi hs).imp_left .inl
    · exact .inl (.inr rfl)
  · rw [hopen]
    intro i hi
    rcases mem_append.mp hi with hi | hi
    · exact h.opens i hi
    · obtain rfl := mem_singleton.mp hi
      exact Bool.eq_false_iff.mpr fun hs => absurd (h.known _ hs) (Nat.lt_irrefl _)
  · rintro i (hw | hmem)
    · rw [hopen, mem_append, not_or, mem_singleton]
      have hlt := h.lt_of_handed (h.called i hw)
      exact ⟨h.closed i (.inl hw), by omega⟩
    · cases hmem

theorem Inv.reset (h : Inv o written [] s) : Inv o written [] (reset o s) := by
  refine Inv.pump { h with blocked := ?_ }
  exact nofun

theorem Inv.settleAll {entries : List PendingWrite}
    (h : Inv o written (entries.map (·.promise)) s)
    (hlt : ∀ entry ∈ entries, entry.promise < s.writeCalls) :
    Inv o written [] (entries.foldl (fun s entry => s.settle entry.promise .rejected) s) := by
  induction entries generalizing s with
  | nil => exact h
  | cons entry entries ih =>
    rw [List.forall_mem_cons] at hlt
    refine ih (Inv.settle h hlt.1 (.inl rfl)) ?_
    obtain ⟨settled, hs⟩ := settle_other (s := s) entry.promise .rejected
    have hcount : (s.settle entry.promise .rejected).writeCalls = s.writeCalls := by
      rw [hs]
    intro other hmem
    show other.promise < (s.settle entry.promise .rejected).writeCalls
    rw [hcount]
    exact hlt.2 other hmem

theorem Inv.dispose (h : Inv o written [] s) : Inv o written [] (dispose s) := by
  have hqueue : ∀ entry ∈ s.queue, entry.promise < s.writeCalls :=
    fun entry hmem => h.lt_of_open (List.mem_append_right _ hmem)
  have hopen : ∀ i, i ∈ openList s ↔
      i ∈ (inFlight s).map (·.promise) ∨ i ∈ s.queue.map (·.promise) := by
    intro i
    rw [openList, map_append, mem_append]
  have hflying : openList { s with
      queue := [], queuedChars := 0, bytesWritten := 0, pendingCallbacks := 0, blocked := false } =
      (inFlight s).map (·.promise) := by
    rw [openList, append_nil]
    rfl
  refine Inv.settleAll { h with
    queuedChars := rfl, blocked := nofun, order := ?_, data := ?_, unsettled := ?_, opens := ?_
    closed := ?_ } hqueue
  · refine h.order.sublist (List.Sublist.map _ ?_)
    exact (List.Sublist.refl _).append (List.nil_sublist _)
  · intro entry hmem
    rw [line, append_nil] at hmem
    exact h.data entry (List.mem_append_left _ hmem)
  · intro i hi hs
    rw [hflying]
    rcases h.unsettled i hi hs with ho | hw | hmem
    · rcases (hopen i).mp ho with hi | hi
      · exact .inl hi
      · exact .inr (.inr hi)
    · exact .inr (.inl hw)
    · cases hmem
  · intro i hi
    rw [hflying] at hi
    exact h.opens i ((hopen i).mpr (.inl hi))
  · intro i hi
    rw [hflying]
    rcases hi with hw | hi
    · exact fun hmem => h.closed i (.inl hw) ((hopen i).mpr (.inl hmem))
    · have hnodup := h.nodup
      rw [openList, map_append, List.nodup_append] at hnodup
      exact fun hmem => hnodup.2.2 i hmem i hi rfl

def writtenBy : Event → List JsString
  | .write data _ => [data]
  | _ => []

theorem Inv.popWritten (h : Inv o written [] s) (hstack : s.stack = .onWritten entry :: stack)
    (settlement : Settlement) :
    Inv o written []
      (State.pump o (State.settle { s with stack := stack } entry.promise settlement)) := by
  have hhanded : Handed s entry.promise :=
    h.called _ ⟨entry, by rw [hstack]; exact mem_cons_self, rfl⟩
  have hpop := h.pop hstack [entry.promise] fun i => by simp [eq_comm]
  exact (Inv.settle hpop (h.lt_of_handed hhanded) (.inr hhanded)).pump

theorem Inv.popTarget (h : Inv o written [] s) (hstack : s.stack = .targetWrite index :: stack) :
    Inv o written [] { s with stack := stack } :=
  h.pop hstack [] fun i => by simp

theorem inv_step (h : Inv o written [] s) (e : Event) :
    Inv o (written ++ writtenBy e) [] (step o s e) := by
  have hnone (hinv : Inv o written [] (step o s e)) (he : writtenBy e = []) :
      Inv o (written ++ writtenBy e) [] (step o s e) := by
    rw [he, append_nil]
    exact hinv
  cases e with
  | write data onWritten => exact h.write data onWritten
  | complete call => exact hnone (h.complete call) rfl
  | reset => exact hnone h.reset rfl
  | dispose => exact hnone h.dispose rfl
  | returns =>
    refine hnone ?_ rfl
    unfold step
    dsimp only
    split
    · exact h
    · next hstack => exact (h.popTarget hstack).loop
    · next hstack => exact h.popWritten hstack .resolved
  | throws =>
    refine hnone ?_ rfl
    unfold step
    dsimp only
    split
    · exact h
    · next hstack => exact ((h.popTarget hstack).failed _).loop
    · next hstack => exact h.popWritten hstack .rejected

end

theorem inv_run (o : Settings) (es : List Event) :
    Inv o (es.flatMap writtenBy) [] (run (step o) createTerminalWriteFlowControl es) := by
  induction es using history_induct with
  | hnil => exact inv_create o
  | hstep es e ih =>
    rw [run_snoc, List.flatMap_append, List.flatMap_singleton]
    exact inv_step ih e

end CcPanes.WriteFlow

import CcPanes.Foundation.Debt
import CcPanes.Daemon.WsEmitter

/-!
# No silent gap in the session stream

A subscriber that misses output, or whose session signals a desync, is owed a desync message: it
must be enqueued before the next output is.
-/

namespace CcPanes

open Run Debt BoundedChannel SessionSubscriber List Function

variable {sub : SessionSubscriber} {sub' : SessionSubscriber} {msg : Message}

/-! ## the claim about one subscriber -/

def desyncLedger : Ledger StreamEvent where
  incurs
    | .missed _ => true
    | .signalled => true
    | .enqueued _ => false
  pays
    | .enqueued .desync => true
    | _ => false
  needs
    | .enqueued (.output _) => true
    | _ => false

def enqueuedIn (t : List StreamEvent) : List Message :=
  t.filterMap fun
    | .enqueued m => some m
    | _ => none

def offeredIn (t : List StreamEvent) : List Output :=
  t.filterMap fun
    | .enqueued (.output o) => some o
    | .missed o => some o
    | _ => none

def outputsOf (ms : List Message) : List Output :=
  ms.filterMap fun
    | .output o => some o
    | _ => none

structure NoSilentGap (sub : SessionSubscriber) : Prop where
  /-- the trace tells what the channel accepted -/
  accepted : enqueuedIn sub.trace = sub.tx.sent
  /-- and every output that was emitted, accepted or missed -/
  complete : offeredIn sub.trace = sub.offered
  /-- a desync lies between a gap and the next output -/
  settled : Settled desyncLedger sub.trace
  /-- the receiver sees the outputs in the order of their emission, each at most once -/
  inOrder : (outputsOf sub.tx.received).Sublist sub.offered

theorem enqueuedIn_snoc (t : List StreamEvent) (m : Message) :
    enqueuedIn (t ++ [.enqueued m]) = enqueuedIn t ++ [m] := by
  simp [enqueuedIn]

theorem enqueuedIn_missed (t : List StreamEvent) (o : Output) :
    enqueuedIn (t ++ [.missed o]) = enqueuedIn t := by
  simp [enqueuedIn]

theorem enqueuedIn_signalled (t : List StreamEvent) :
    enqueuedIn (t ++ [.signalled]) = enqueuedIn t := by
  simp [enqueuedIn]

theorem offeredIn_snoc (t : List StreamEvent) (x : StreamEvent) :
    offeredIn (t ++ [x]) = offeredIn t ++ offeredIn [x] := by
  simp [offeredIn, filterMap_append]

theorem outputsOf_enqueuedIn_sublist (t : List StreamEvent) :
    (outputsOf (enqueuedIn t)).Sublist (offeredIn t) := by
  induction t with
  | nil => exact List.Sublist.refl _
  | cons x t ih =>
    cases x with
    | enqueued m =>
      cases m with
      | output o => exact ih.cons_cons o
      | desync => exact ih
      | exit => exact ih
      | killed => exact ih
    | missed o => exact ih.cons o
    | signalled => exact ih

/-- `trySend` accepted the message -/
structure Sent (msg : Message) (sub sub' : SessionSubscriber) : Prop where
  isOpen : sub.tx.closed = false
  isOpen' : sub'.tx.closed = false
  sent : sub'.tx.sent = sub.tx.sent ++ [msg]
  received : sub'.tx.received = sub.tx.received
  trace : sub'.trace = sub.trace ++ [.enqueued msg]
  offered : sub'.offered = sub.offered
  desynced : sub'.desynced = sub.desynced
  hidden : sub'.hidden = sub.hidden
  dropped : sub'.droppedWhileHidden = sub.droppedWhileHidden

theorem trySend_cases (sub : SessionSubscriber) (msg : Message) :
    (∃ sub', sub.trySend msg = .ok sub' ∧ Sent msg sub sub') ∨
      sub.trySend msg = .error .full ∨
      (sub.trySend msg = .error .closed ∧ sub.tx.closed = true) := by
  unfold SessionSubscriber.trySend
  rcases sub.tx.trySend_cases msg with ⟨tx, h, hc, hs, hc', hr⟩ | ⟨h, _⟩ | ⟨h, hc⟩
  · left
    rw [h]
    exact ⟨_, rfl, ⟨hc, hc'.trans hc, hs, hr, rfl, rfl, rfl, rfl, rfl⟩⟩
  · right; left
    rw [h]
  · right; right
    rw [h]
    exact ⟨rfl, hc⟩

/-- the subscriber `sub0` from which a message is sent: the owed mark, if any, went in first -/
inductive Marked (sub : SessionSubscriber) : SessionSubscriber → Prop
  | clear (h : sub.desynced = false) : Marked sub sub
  | paid {sub' : SessionSubscriber} (h : Sent .desync sub sub') :
      Marked sub { sub' with desynced := false }

/-- **What `deliver` can do.** -/
theorem deliver_cases (sub : SessionSubscriber) (msg : Message) (dropOnFull : Bool) :
    (sub.hidden = true ∧ dropOnFull = true ∧
        sub.deliver msg dropOnFull = ({ sub with droppedWhileHidden := true }, false)) ∨
      ((sub.hidden = false ∨ dropOnFull = false) ∧ ((sub.deliver msg dropOnFull = (sub, false) ∧
            (sub.desynced = true ∨ sub.tx.closed = true)) ∨
          (∃ sub0 sub1, Marked sub sub0 ∧ Sent msg sub0 sub1 ∧
            sub.deliver msg dropOnFull = (sub1, true)) ∨
          (∃ sub0, Marked sub sub0 ∧ sub.deliver msg dropOnFull =
            (if dropOnFull then { sub0 with desynced := true } else sub0, false)))) := by
  have second : ∀ sub0, Marked sub sub0 →
      (deliverMessage sub0 msg dropOnFull = (sub0, false) ∧ sub0.tx.closed = true) ∨
        (∃ sub1, Sent msg sub0 sub1 ∧ deliverMessage sub0 msg dropOnFull = (sub1, true)) ∨
        deliverMessage sub0 msg dropOnFull =
          (if dropOnFull then { sub0 with desynced := true } else sub0, false) := by
    intro sub0 _
    unfold deliverMessage
    rcases trySend_cases sub0 msg with ⟨sub1, h, hs⟩ | h | ⟨h, hc⟩
    · right; left
      rw [h]
      exact ⟨sub1, hs, rfl⟩
    · right; right
      rw [h]
    · left
      rw [h]
      exact ⟨rfl, hc⟩
  by_cases hh : sub.hidden = true ∧ dropOnFull = true
  · left
    refine ⟨hh.1, hh.2, ?_⟩
    unfold deliver
    rw [if_pos (by simp [hh.1, hh.2])]
  right
  have hh' : (sub.hidden && dropOnFull) = false := by
    cases h1 : sub.hidden <;> cases h2 : dropOnFull <;> simp_all
  refine ⟨by cases h1 : sub.hidden <;> simp_all, ?_⟩
  unfold deliver
  rw [hh', if_neg (by simp)]
  by_cases hd : sub.desynced = true
  · rw [if_pos hd]
    rcases trySend_cases sub .desync with ⟨sub', h, hs⟩ | h | ⟨h, hc⟩
    · rw [h]
      have hm : Marked sub { sub' with desynced := false } := .paid hs
      rcases second _ hm with ⟨_, hc⟩ | ⟨sub1, h1, h2⟩ | h2
      · rw [show sub'.tx.closed = false from hs.isOpen'] at hc
        cases hc
      · exact .inr (.inl ⟨_, sub1, hm, h1, h2⟩)
      · exact .inr (.inr ⟨_, hm, h2⟩)
    · rw [h]
      exact .inl ⟨rfl, .inl hd⟩
    · rw [h]
      exact .inl ⟨rfl, .inl hd⟩
  · rw [if_neg hd]
    have hm : Marked sub sub := .clear (by simpa using hd)
    rcases second _ hm with ⟨h2, hc⟩ | ⟨sub1, h1, h2⟩ | h2
    · exact .inl ⟨h2, .inr hc⟩
    · exact .inr (.inl ⟨_, sub1, hm, h1, h2⟩)
    · exact .inr (.inr ⟨_, hm, h2⟩)

/-! ## the invariant -/

/-- the history is truthful, and `dropped_while_hidden` is only set while hidden -/
structure Recorded (sub : SessionSubscriber) : Prop where
  accepted : enqueuedIn sub.trace = sub.tx.sent
  settled : Settled desyncLedger sub.trace
  whileHidden : sub.droppedWhileHidden = true → sub.hidden = true

/-- an open debt is remembered by `desynced` or by `dropped_while_hidden` -/
structure Kept (sub : SessionSubscriber) : Prop extends Recorded sub where
  remembered : owed desyncLedger sub.trace = true → sub.tx.closed = false →
    sub.desynced = true ∨ sub.droppedWhileHidden = true

theorem kept_new (connectionId : Option String) : Kept (SessionSubscriber.new connectionId) where
  accepted := rfl
  settled := settled_nil
  whileHidden h := absurd h (by simp [SessionSubscriber.new])
  remembered h := absurd h (by simp [SessionSubscriber.new, owed_nil])

theorem Recorded.desynced (h : Recorded sub) :
    Kept { sub with desynced := true } := { h with
  remembered _ _ := .inl rfl }

theorem Recorded.sent (h : Recorded sub) (hs : Sent msg sub sub')
    (hm : ∀ o, msg = .output o → owed desyncLedger sub.trace = false) : Recorded sub' where
  accepted := by rw [hs.trace, enqueuedIn_snoc, h.accepted, hs.sent]
  settled := by
    rw [hs.trace]
    refine settled_snoc.mpr ⟨h.settled, fun hn => ?_⟩
    cases msg with
    | output o => exact hm o rfl
    | desync | exit | killed => exact absurd hn (by simp [desyncLedger])
  whileHidden := by
    rw [hs.dropped, hs.hidden]
    exact h.whileHidden

theorem Recorded.paid (h : Recorded sub) (hs : Sent .desync sub sub') :
    Kept sub' ∧ Kept { sub' with desynced := false } := by
  have hr : Recorded sub' := h.sent hs nofun
  have ho : owed desyncLedger sub'.trace = false := by
    rw [hs.trace]
    exact owed_snoc_of_pays rfl rfl
  refine ⟨⟨hr, fun h1 _ => ?_⟩, ⟨⟨hr.accepted, hr.settled, hr.whileHidden⟩, fun h1 _ => ?_⟩⟩
  · rw [ho] at h1
    cases h1
  · have h1' : owed desyncLedger sub'.trace = true := h1
    rw [ho] at h1'
    cases h1'

theorem Kept.sent (h : Kept sub) (hs : Sent msg sub sub')
    (hm : ∀ o, msg = .output o → owed desyncLedger sub.trace = false) : Kept sub' where
  toRecorded := h.toRecorded.sent hs hm
  remembered := by
    intro ho _
    have ho' : owed desyncLedger sub.trace = true := by
      rw [hs.trace] at ho
      cases msg with
      | desync => rw [owed_snoc_of_pays rfl rfl] at ho; cases ho
      | output | exit | killed => rwa [owed_snoc_of_neither rfl rfl] at ho
    rw [hs.desynced, hs.dropped]
    exact h.remembered ho' hs.isOpen

theorem Kept.marked {sub sub0 : SessionSubscriber} (h : Kept sub) (hm : Marked sub sub0) :
    Kept sub0 ∧ sub0.desynced = false ∧ sub0.hidden = sub.hidden := by
  cases hm with
  | clear hd => exact ⟨h, hd, rfl⟩
  | paid hs => exact ⟨(h.toRecorded.paid hs).2, rfl, hs.hidden⟩

theorem Recorded.incur {x : StreamEvent} (h : Recorded sub) (hx : desyncLedger.incurs x = true) :
    Recorded { sub with trace := sub.trace ++ [x] } := { h with
  accepted := by
    cases x with
    | enqueued => exact absurd hx (by simp [desyncLedger])
    | missed => rw [enqueuedIn_missed, h.accepted]
    | signalled => rw [enqueuedIn_signalled, h.accepted]
  settled := by
    refine settled_snoc.mpr ⟨h.settled, fun hn => ?_⟩
    cases x with
    | enqueued => exact absurd hx (by simp [desyncLedger])
    | missed => exact absurd hn (by simp [desyncLedger])
    | signalled => exact absurd hn (by simp [desyncLedger]) }

theorem Kept.note {accepted : Bool} (h : Kept sub)
    (hr : accepted = false → (∃ o, msg = .output o) → sub.tx.closed = false →
      sub.desynced = true ∨ sub.droppedWhileHidden = true) : Kept (note msg accepted sub) := by
  cases msg with
  | output o =>
    cases accepted with
    | true => exact ⟨⟨h.accepted, h.settled, h.whileHidden⟩, h.remembered⟩
    | false =>
      have hk := h.toRecorded.incur (x := .missed o) rfl
      exact ⟨⟨hk.accepted, hk.settled, hk.whileHidden⟩, fun _ hc => hr rfl ⟨o, rfl⟩ hc⟩
  | desync => exact h
  | exit => exact h
  | killed => exact h

def Message.dropOnFull : Message → Bool
  | .output _ => true
  | _ => false

theorem Kept.deliverNoted (h : Kept sub) (msg : Message) :
    Kept (sub.deliverNoted msg msg.dropOnFull).1 := by
  show Kept (SessionSubscriber.note msg (sub.deliver msg msg.dropOnFull).2
    (sub.deliver msg msg.dropOnFull).1)
  have hdrop : ∀ o, msg = .output o → msg.dropOnFull = true := fun o e => by rw [e]; rfl
  rcases deliver_cases sub msg msg.dropOnFull with
    ⟨hh, _, hr⟩ | ⟨hv, ⟨hr, hd⟩ | ⟨sub0, sub1, hm, hs, hr⟩ | ⟨sub0, hm, hr⟩⟩
  · rw [hr]
    exact Kept.note ⟨⟨h.accepted, h.settled, fun _ => hh⟩, fun _ _ => .inr rfl⟩
      fun _ _ _ => .inr rfl
  · rw [hr]
    refine h.note fun _ _ hc => ?_
    rcases hd with hd | hd
    · exact .inl hd
    · rw [hc] at hd
      cases hd
  · rw [hr]
    obtain ⟨hk, hd0, hh0⟩ := h.marked hm
    refine (hk.sent hs fun o e => ?_).note nofun
    -- an output only goes out to a visible subscriber, so neither flag is set
    have hvis : sub0.hidden = false := by
      rw [hh0]
      rcases hv with hv | hv
      · exact hv
      · rw [hdrop o e] at hv
        cases hv
    by_contra ho
    rcases hk.remembered (by simpa using ho) hs.isOpen with hd | hd
    · rw [hd0] at hd
      cases hd
    · rw [hk.whileHidden hd] at hvis
      cases hvis
  · rw [hr]
    obtain ⟨hk, _, _⟩ := h.marked hm
    cases hdo : msg.dropOnFull with
    | true =>
      exact hk.desynced.note fun _ _ _ => .inl rfl
    | false =>
      refine hk.note fun _ ho => ?_
      obtain ⟨o, e⟩ := ho
      rw [hdrop o e] at hdo
      cases hdo

theorem Kept.setHidden (h : Kept sub) (shouldHide : Bool) : Kept (sub.setHidden shouldHide) := by
  unfold SessionSubscriber.setHidden
  by_cases hs : shouldHide = true
  · rw [if_pos hs]
    exact ⟨⟨h.accepted, h.settled, fun _ => rfl⟩, h.remembered⟩
  rw [if_neg hs]
  by_cases hh : sub.hidden = true
  · rw [if_pos hh]
    by_cases hd : sub.droppedWhileHidden = true
    · rw [if_pos hd]
      -- the debt leaves `dropped_while_hidden`: it is paid at once or moves to `desynced`
      have hr : Recorded { sub with hidden := false, droppedWhileHidden := false } :=
        ⟨h.accepted, h.settled, by simp⟩
      dsimp only
      rcases trySend_cases { sub with hidden := false, droppedWhileHidden := false } .desync with
        ⟨sub', e, hs'⟩ | e | ⟨e, _⟩
      · rw [e]
        exact (hr.paid hs').1
      · rw [e]
        exact hr.desynced
      · rw [e]
        exact hr.desynced
    · rw [if_neg hd]
      exact ⟨⟨h.accepted, h.settled, fun e => absurd e hd⟩, h.remembered⟩
  · rw [if_neg hh]
    exact h

theorem Kept.signal (h : Kept sub) : Kept sub.signal := by
  have hr : Recorded { sub with trace := sub.trace ++ [StreamEvent.signalled] } :=
    h.toRecorded.incur rfl
  by_cases hh : sub.hidden = true
  · show Kept (if sub.hidden = true then _ else _)
    rw [if_pos hh]
    exact ⟨⟨hr.accepted, hr.settled, fun _ => hh⟩, fun _ _ => .inr rfl⟩
  show Kept (if sub.hidden = true then _ else _)
  rw [if_neg hh]
  rcases trySend_cases { sub with trace := sub.trace ++ [.signalled] } .desync with
    ⟨sub', e, hs'⟩ | e | ⟨e, _⟩
  · rw [e]
    exact (hr.paid hs').2
  · rw [e]
    exact hr.desynced
  · rw [e]
    exact hr.desynced

theorem Kept.clearHidden (h : Kept sub)
    (hc : sub.droppedWhileHidden = true → sub.desynced = true ∨ sub.tx.closed = true) :
    Kept sub.clearHidden := { h with
  whileHidden e := absurd e (by simp [SessionSubscriber.clearHidden])
  remembered := by
    intro ho hopen
    have hopen' : sub.tx.closed = false := hopen
    rcases h.remembered ho hopen with hd | hd
    · exact .inl hd
    rcases hc hd with hd | hd
    · exact .inl hd
    · rw [hopen'] at hd
      exact nomatch hd }

theorem Kept.recv (h : Kept sub) : Kept sub.recv := { h with
  accepted := h.accepted.trans sub.tx.sent_recv.symm
  remembered ho hc := h.remembered ho (sub.tx.closed_recv.symm.trans hc) }

theorem Kept.close (h : Kept sub) : Kept sub.close := { h with
  remembered _ hc := absurd hc (by simp [SessionSubscriber.close, Channel.close]) }

/-! ## no output escapes the record -/

def Complete (sub : SessionSubscriber) : Prop := offeredIn sub.trace = sub.offered

theorem Complete.sent (h : Complete sub) (hs : Sent msg sub sub') (hm : msg.dropOnFull = false) :
    Complete sub' := by
  show offeredIn sub'.trace = sub'.offered
  rw [hs.trace, offeredIn_snoc, hs.offered, h]
  cases msg with
  | output => exact absurd hm (by simp [Message.dropOnFull])
  | desync => exact append_nil _
  | exit => exact append_nil _
  | killed => exact append_nil _

theorem Complete.sent_desync (h : Complete sub) (hs : Sent .desync sub sub') : Complete sub' :=
  h.sent hs rfl

theorem Complete.marked {sub sub0 : SessionSubscriber} (h : Complete sub) (hm : Marked sub sub0) :
    Complete sub0 := by
  cases hm with
  | clear => exact h
  | @paid sub' hs =>
    have h' : Complete sub' := h.sent_desync hs
    exact h'

theorem Complete.note (h : Complete sub) (msg : Message) :
    Complete (SessionSubscriber.note msg false sub) := by
  cases msg with
  | output o =>
    show offeredIn (sub.trace ++ [.missed o]) = sub.offered ++ [o]
    rw [offeredIn_snoc, show offeredIn sub.trace = sub.offered from h]
    rfl
  | desync => exact h
  | exit => exact h
  | killed => exact h

theorem Complete.note_sent (h : Complete sub) (hs : Sent msg sub sub') :
    Complete (SessionSubscriber.note msg true sub') := by
  cases msg with
  | output o =>
    show offeredIn sub'.trace = sub'.offered ++ [o]
    rw [hs.trace, offeredIn_snoc, hs.offered, h]
    rfl
  | desync => exact h.sent_desync hs
  | exit => exact h.sent hs rfl
  | killed => exact h.sent hs rfl

theorem Complete.deliverNoted (h : Complete sub) (msg : Message) (dropOnFull : Bool) :
    Complete (sub.deliverNoted msg dropOnFull).1 := by
  show Complete (SessionSubscriber.note msg (sub.deliver msg dropOnFull).2
    (sub.deliver msg dropOnFull).1)
  rcases deliver_cases sub msg dropOnFull with
    ⟨_, _, hr⟩ | ⟨_, ⟨hr, _⟩ | ⟨sub0, sub1, hm, hs, hr⟩ | ⟨sub0, hm, hr⟩⟩
  · rw [hr]
    have h' : Complete { sub with droppedWhileHidden := true } := h
    exact h'.note msg
  · rw [hr]
    exact h.note msg
  · rw [hr]
    exact (h.marked hm).note_sent hs
  · rw [hr]
    cases dropOnFull with
    | true =>
      have h0 : Complete { sub0 with desynced := true } := show Complete sub0 from h.marked hm
      exact h0.note msg
    | false => exact (h.marked hm).note msg

theorem Complete.setHidden (h : Complete sub) (shouldHide : Bool) :
    Complete (sub.setHidden shouldHide) := by
  unfold SessionSubscriber.setHidden
  by_cases hs : shouldHide = true
  · rw [if_pos hs]
    exact h
  rw [if_neg hs]
  by_cases hh : sub.hidden = true
  · rw [if_pos hh]
    by_cases hd : sub.droppedWhileHidden = true
    · rw [if_pos hd]
      dsimp only
      have h' : Complete { sub with hidden := false, droppedWhileHidden := false } := h
      rcases trySend_cases { sub with hidden := false, droppedWhileHidden := false } .desync with
        ⟨sub', e, hs'⟩ | e | ⟨e, _⟩
      · rw [e]
        exact h'.sent_desync hs'
      · rw [e]
        exact h
      · rw [e]
        exact h
    · rw [if_neg hd]
      exact h
  · rw [if_neg hh]
    exact h

theorem Complete.signal (h : Complete sub) : Complete sub.signal := by
  have h' : Complete { sub with trace := sub.trace ++ [StreamEvent.signalled] } := by
    show offeredIn (sub.trace ++ [StreamEvent.signalled]) = sub.offered
    rw [offeredIn_snoc, h]
    exact append_nil _
  by_cases hh : sub.hidden = true
  · show Complete (if sub.hidden = true then _ else _)
    rw [if_pos hh]
    exact h'
  show Complete (if sub.hidden = true then _ else _)
  rw [if_neg hh]
  rcases trySend_cases { sub with trace := sub.trace ++ [.signalled] } .desync with
    ⟨sub', e, hs'⟩ | e | ⟨e, _⟩
  · rw [e]
    have hc : Complete sub' := h'.sent_desync hs'
    exact hc
  · rw [e]
    exact h'
  · rw [e]
    exact h'

theorem noSilentGap_of_recorded (h : enqueuedIn sub.trace = sub.tx.sent) (hc : Complete sub)
    (hs : Settled desyncLedger sub.trace) : NoSilentGap sub where
  accepted := h
  complete := hc
  settled := hs
  inOrder := by
    have h1 : (outputsOf sub.tx.received).Sublist (outputsOf sub.tx.sent) :=
      (sub.tx.received_prefix.sublist).filterMap _
    rw [← h] at h1
    rw [← hc]
    exact h1.trans (outputsOf_enqueuedIn_sublist _)

theorem NoSilentGap.recv (h : NoSilentGap sub) : NoSilentGap sub.recv :=
  noSilentGap_of_recorded (h.accepted.trans sub.tx.sent_recv.symm) h.complete h.settled

/-! ## runs of the emitter -/

namespace WsEmitter

variable {e : WsEmitter}

structure Sound (e : WsEmitter) : Prop where
  attached : ∀ sessionId, ∀ sub ∈ e.subscribers sessionId, Kept sub ∧ Complete sub
  detached : ∀ sub ∈ e.detached, NoSilentGap sub

def Has (e : WsEmitter) (sub : SessionSubscriber) : Prop :=
  (∃ sessionId, sub ∈ e.subscribers sessionId) ∨ sub ∈ e.detached

def StreamsSound (e : WsEmitter) : Prop := ∀ sub, e.Has sub → NoSilentGap sub

/-- `clear_connection_hidden` meets no open subscriber of its connection whose only memory of a
dropped output is `dropped_while_hidden` -/
def ClearsNoDebt (e : WsEmitter) : Action → Prop
  | .clearHidden connectionId =>
    ∀ sessionId, ∀ sub ∈ e.subscribers sessionId, sub.connectionId = some connectionId →
      sub.droppedWhileHidden = true → sub.desynced = true ∨ sub.tx.closed = true
  | _ => True

theorem Sound.streams (h : e.Sound) : e.StreamsSound := by
  rintro sub (⟨sessionId, hs⟩ | hs)
  · obtain ⟨hk, hc⟩ := h.attached sessionId sub hs
    exact noSilentGap_of_recorded hk.accepted hc hk.settled
  · exact h.detached sub hs

theorem Sound.update (h : e.Sound) {sessionId : String} {subs : List SessionSubscriber}
    (hs : ∀ sub ∈ subs, Kept sub ∧ Complete sub) :
    Sound { e with subscribers := Function.update e.subscribers sessionId subs } where
  attached := by
    intro sid sub hm
    have hm' : sub ∈ Function.update e.subscribers sessionId subs sid := hm
    by_cases hsid : sid = sessionId
    · rw [hsid, update_self] at hm'
      exact hs sub hm'
    · rw [update_of_ne hsid] at hm'
      exact h.attached sid sub hm'
  detached := h.detached

theorem forall_modify {P : SessionSubscriber → Prop} {f : SessionSubscriber → SessionSubscriber}
    (hf : ∀ sub, P sub → P (f sub)) {subs : List SessionSubscriber} (h : ∀ sub ∈ subs, P sub)
    (i : Nat) : ∀ sub ∈ subs.modify i f, P sub := by
  induction subs generalizing i with
  | nil => simp
  | cons a subs ih =>
    have ha : P a := h a (by simp)
    have hrest : ∀ sub ∈ subs, P sub := fun sub hs => h sub (mem_cons_of_mem _ hs)
    cases i with
    | zero =>
      intro sub hs
      rcases mem_cons.mp hs with rfl | hs
      · exact hf a ha
      · exact hrest sub hs
    | succ i =>
      intro sub hs
      rcases mem_cons.mp hs with rfl | hs
      · exact ha
      · exact ih hrest i sub hs

theorem Sound.publishWith (h : e.Sound) (sessionId : String) (msg : Message) :
    (e.publishWith sessionId msg msg.dropOnFull).1.Sound := by
  refine h.update fun sub hs => ?_
  simp only [map_map, mem_map, mem_filter, comp_apply] at hs
  obtain ⟨sub', ⟨hm, _⟩, rfl⟩ := hs
  obtain ⟨hk, hc⟩ := h.attached sessionId sub' hm
  exact ⟨hk.deliverNoted msg, hc.deliverNoted msg _⟩

theorem Sound.dropSessionSubscribers (h : e.Sound) (sessionId : String) :
    (e.dropSessionSubscribers sessionId).Sound where
  attached := by
    have hnone : ∀ sub ∈ ([] : List SessionSubscriber), Kept sub ∧ Complete sub := by simp
    exact (Sound.update h hnone : Sound { e with
      subscribers := Function.update e.subscribers sessionId [] }).attached
  detached := by
    intro sub hs
    rcases mem_append.mp hs with hs | hs
    · exact h.detached sub hs
    · exact h.streams sub (.inl ⟨sessionId, hs⟩)

theorem Sound.publishControl (h : e.Sound) (msg : ControlMessage) :
    (e.publishControl msg).Sound := ⟨h.attached, h.detached⟩

theorem Sound.emit (h : e.Sound) (event : BusEvent) : (e.emit event).1.Sound := by
  cases event with
  | terminalOutput sessionId o => exact h.publishWith sessionId (.output o)
  | terminalExit sessionId exitCode =>
    have hp := h.publishWith sessionId (.exit exitCode)
    show (WsEmitter.dropSessionSubscribers (if _ then _ else _) sessionId).Sound
    split
    · exact hp.dropSessionSubscribers sessionId
    · exact (hp.publishControl _).dropSessionSubscribers sessionId
  | sessionKilled sessionId reason =>
    have hp := h.publishWith sessionId (.killed reason)
    show (WsEmitter.dropSessionSubscribers (if _ then _ else _) sessionId).Sound
    split
    · exact hp.dropSessionSubscribers sessionId
    · exact (hp.publishControl _).dropSessionSubscribers sessionId
  | terminalDesync sessionId =>
    refine h.update fun sub hs => ?_
    obtain ⟨sub', hm, rfl⟩ := mem_map.mp hs
    obtain ⟨hk, hc⟩ := h.attached sessionId sub' hm
    exact ⟨hk.signal, hc.signal⟩

theorem Sound.step (h : e.Sound) (a : Action) (ha : e.ClearsNoDebt a) : (e.step a).Sound := by
  cases a with
  | subscribe sessionId connectionId =>
    refine h.update fun sub hs => ?_
    rcases mem_append.mp hs with hs | hs
    · exact h.attached sessionId sub hs
    · rw [mem_singleton.mp hs]
      exact ⟨kept_new connectionId, rfl⟩
  | emit event => exact h.emit event
  | setHidden =>
    refine ⟨fun sessionId sub hs => ?_, h.detached⟩
    obtain ⟨sub', hm, rfl⟩ := mem_map.mp hs
    obtain ⟨hk, hc⟩ := h.attached sessionId sub' hm
    split
    · exact ⟨hk.setHidden _, hc.setHidden _⟩
    · exact ⟨hk, hc⟩
  | clearHidden =>
    refine ⟨fun sessionId sub hs => ?_, h.detached⟩
    obtain ⟨sub', hm, rfl⟩ := mem_map.mp hs
    obtain ⟨hk, hc⟩ := h.attached sessionId sub' hm
    split
    · next hconn => exact ⟨hk.clearHidden (ha sessionId sub' hm hconn), hc⟩
    · exact ⟨hk, hc⟩
  | recv sessionId i =>
    refine h.update (forall_modify (P := fun sub => Kept sub ∧ Complete sub) (fun sub hs => ?_)
      (h.attached sessionId) i)
    exact ⟨hs.1.recv, hs.2⟩
  | recvDetached i =>
    exact ⟨h.attached, forall_modify (P := NoSilentGap) (fun sub hs => hs.recv) h.detached i⟩
  | disconnect sessionId i =>
    refine h.update fun sub hs => ?_
    have hm := (mem_filter.mp hs).1
    exact forall_modify (P := fun sub => Kept sub ∧ Complete sub)
      (fun sub hs => ⟨hs.1.close, hs.2⟩) (h.attached sessionId) i sub hm

theorem sound_new : WsEmitter.new.Sound where
  attached _ _ h := absurd h (by simp [WsEmitter.new])
  detached _ h := absurd h (by simp [WsEmitter.new])

theorem deliverNoted_accepted (sub : SessionSubscriber) (o : Output) :
    (sub.deliverNoted (.output o) true).2 = true ↔
      (sub.deliverNoted (.output o) true).1.trace.getLast? = some (.enqueued (.output o)) := by
  show (sub.deliver (.output o) true).2 = true ↔
    (SessionSubscriber.note (.output o) (sub.deliver (.output o) true).2
      (sub.deliver (.output o) true).1).trace.getLast? = _
  rcases deliver_cases sub (.output o) true with
    ⟨_, _, hr⟩ | ⟨_, ⟨hr, _⟩ | ⟨sub0, sub1, _, hs, hr⟩ | ⟨sub0, _, hr⟩⟩
  · rw [hr]
    simp [SessionSubscriber.note]
  · rw [hr]
    simp [SessionSubscriber.note]
  · rw [hr]
    simp [SessionSubscriber.note, hs.trace]
  · rw [hr]
    simp [SessionSubscriber.note]

theorem emit_output_ok (e : WsEmitter) (sessionId : String) (o : Output) :
    (e.emit (.terminalOutput sessionId o)).2 = .ok () ↔
      ∃ sub ∈ (e.emit (.terminalOutput sessionId o)).1.subscribers sessionId,
        sub.trace.getLast? = some (.enqueued (.output o)) := by
  let results := ((e.subscribers sessionId).filter fun sub => !sub.tx.closed).map
    (SessionSubscriber.deliverNoted (.output o) true)
  have hsubs : (e.emit (.terminalOutput sessionId o)).1.subscribers sessionId
      = results.map Prod.fst := update_self ..
  have hok : (e.emit (.terminalOutput sessionId o)).2 = .ok () ↔ results.any Prod.snd = true := by
    show (if results.any Prod.snd then Except.ok () else _) = Except.ok () ↔ _
    cases results.any Prod.snd <;> simp
  rw [hsubs, hok, any_eq_true]
  constructor
  · rintro ⟨r, hr, h⟩
    obtain ⟨sub, _, rfl⟩ := mem_map.mp hr
    exact ⟨_, mem_map.mpr ⟨_, hr, rfl⟩, (deliverNoted_accepted sub o).mp h⟩
  rintro ⟨sub', hs, h⟩
  obtain ⟨r, hr, rfl⟩ := mem_map.mp hs
  obtain ⟨sub, _, rfl⟩ := mem_map.mp hr
  exact ⟨_, hr, (deliverNoted_accepted sub o).mpr h⟩

/-- **No silent gap** in every run that clears no debt, and an emission succeeds exactly if some
queue took the message. -/
theorem noSilentGap_of_clearsNoDebt (as : List Action)
    (h : StepsOk WsEmitter.step ClearsNoDebt WsEmitter.new as) :
    Along WsEmitter.step StreamsSound WsEmitter.new as ∧
      ∀ e sessionId o, (WsEmitter.emit e (.terminalOutput sessionId o)).2 = .ok () ↔
        ∃ sub ∈ (WsEmitter.emit e (.terminalOutput sessionId o)).1.subscribers sessionId,
          sub.trace.getLast? = some (.enqueued (.output o)) := by
  refine ⟨?_, emit_output_ok⟩
  have hs : Along WsEmitter.step Sound WsEmitter.new as :=
    along_of_inv (fun e a he ha => he.step a ha) sound_new h
  exact hs.mono fun e he => he.streams

/-- a session hidden on `ctl-1` misses an output; the control connection ends or the view returns -/
def hiddenRun (back : Action) : List Action :=
  [.subscribe "s1" (some "ctl-1"), .setHidden "ctl-1" ["s1"],
    .emit (.terminalOutput "s1" ⟨"a", some 1⟩), back, .emit (.terminalOutput "s1" ⟨"b", some 2⟩)]

theorem cleared_debt_leaves_gap :
    ¬ Along WsEmitter.step StreamsSound WsEmitter.new (hiddenRun (.clearHidden "ctl-1")) := by
  intro h
  have hs : ∀ sub ∈ (run WsEmitter.step WsEmitter.new
      (hiddenRun (.clearHidden "ctl-1"))).subscribers "s1", Settled desyncLedger sub.trace :=
    fun sub hm => (h.last sub (.inl ⟨"s1", hm⟩)).settled
  exact absurd hs (by decide +kernel)

theorem noSilentGap_unhidden :
    Along WsEmitter.step StreamsSound WsEmitter.new
        (hiddenRun (.setHidden "ctl-1" []) ++ [.clearHidden "ctl-1"]) ∧
      ∀ e sessionId o, (WsEmitter.emit e (.terminalOutput sessionId o)).2 = .ok () ↔
        ∃ sub ∈ (WsEmitter.emit e (.terminalOutput sessionId o)).1.subscribers sessionId,
          sub.trace.getLast? = some (.enqueued (.output o)) := by
  refine noSilentGap_of_clearsNoDebt _ ⟨trivial, trivial, trivial, trivial, trivial, ?_, trivial⟩
  intro sessionId
  by_cases hs : sessionId = "s1"
  · subst hs
    decide +kernel
  intro sub hm
  refine absurd hm ?_
  simp [WsEmitter.step, WsEmitter.emit, WsEmitter.publish, WsEmitter.publishWith,
    WsEmitter.setHiddenSessions, WsEmitter.subscribeWithConnection, WsEmitter.new, update_of_ne hs]

end WsEmitter

end CcPanes

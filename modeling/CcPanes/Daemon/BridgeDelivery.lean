import CcPanes.Terminal.Recovery
import CcPanes.Daemon.EventBridge

/-!
# What the event bridge passes on

The output events of a bridge follow each other from the view's start on, with a desync event at
every gap and every repetition.
-/

namespace CcPanes.EventBridge

open MarkedStream Run List Option

def itemsOf (events : List ViewEvent) : List (Item UInt8) := events.filterMap ViewEvent.item

def frameItems (frames : List Frame) : List (Item UInt8) := frames.filterMap Frame.item

structure Delivers (w : BridgeWorld) : Prop where
  /-- every output event starts where the last one ended, or a desync stands between them -/
  follows : Follows (some w.viewStart) (itemsOf w.events)
  /-- and holds the session's output from there on -/
  holds : Holds w.produced (itemsOf w.events)

def BridgeWorld.position (w : BridgeWorld) : Option Nat :=
  standsAt (some w.viewStart) (itemsOf w.events)

/-- output from `p` on is what the view needs next, or a gap was announced -/
def BridgeWorld.Aligned (w : BridgeWorld) (p : Nat) : Prop :=
  w.position = none ∨ w.position = some p

instance (w : BridgeWorld) (p : Nat) : Decidable (w.Aligned p) :=
  inferInstanceAs (Decidable (w.position = none ∨ w.position = some p))

/-! ## the condition -/

/-- a frame that no coordinate places starts where the view stands: the first one of a connection
at a fresh cursor, or of a bridge that polls legacy snapshots, and a frame without `endSeq` after
frames with one -/
def PlacedBy (w : BridgeWorld) (f : OutputFrame) : Option Nat → Option Nat → Prop
  | some p, some _ => w.state.legacySnapshots = true → w.reading = none → w.Aligned p
  | some _, none => w.Aligned f.start
  | none, _ => w.reading = none → w.Aligned f.start

instance (w : BridgeWorld) (f : OutputFrame) :
    (cursor endSeq : Option Nat) → Decidable (PlacedBy w f cursor endSeq)
  | some p, some _ =>
    inferInstanceAs (Decidable (w.state.legacySnapshots = true → w.reading = none → w.Aligned p))
  | some _, none => inferInstanceAs (Decidable (w.Aligned f.start))
  | none, _ => inferInstanceAs (Decidable (w.reading = none → w.Aligned f.start))

def FrameAligned (w : BridgeWorld) (f : OutputFrame) : Prop :=
  PlacedBy w f w.state.outputCursor.endSeq f.endSeq

instance (w : BridgeWorld) (f : OutputFrame) : Decidable (FrameAligned w f) :=
  inferInstanceAs (Decidable (PlacedBy w f w.state.outputCursor.endSeq f.endSeq))

/-- where a legacy snapshot goes on from the last one, its tail is output, and starts where the
view stands -/
def LegacyAligned (w : BridgeWorld) (current : Bytes) (stop tail : Nat) : Prop :=
  w.state.lastSnapshot <+: current → current ≠ w.state.lastSnapshot →
    current.length - w.state.lastSnapshot.length ≤ tail ∧
      w.Aligned (stop - (current.length - w.state.lastSnapshot.length))

instance (w : BridgeWorld) (current : Bytes) (stop tail : Nat) :
    Decidable (LegacyAligned w current stop tail) :=
  inferInstanceAs (Decidable (w.state.lastSnapshot <+: current → current ≠ w.state.lastSnapshot →
      current.length - w.state.lastSnapshot.length ≤ tail ∧
        w.Aligned (stop - (current.length - w.state.lastSnapshot.length))))

/-- what `poll_snapshot` was told -/
def PollAligned (w : BridgeWorld) : Poll → Prop
  | .answered (.replay s stop tail) => LegacyAligned w s.data stop tail
  | _ => True

instance (w : BridgeWorld) : (p : Poll) → Decidable (PollAligned w p)
  | .answered (.replay s stop tail) =>
    inferInstanceAs (Decidable (LegacyAligned w s.data stop tail))
  | .answered (.recovery _) => .isTrue trivial
  | .answered .gone => .isTrue trivial
  | .answered .unsupported => .isTrue trivial
  | .answered .failed => .isTrue trivial
  | .asking => .isTrue trivial
  | .idle => .isTrue trivial

def BridgeWorld.nextOutput (w : BridgeWorld) : Option OutputFrame :=
  match w.phase, w.subscription with
  | .streaming, some s =>
    match s.frames with
    | .output f :: _ => some f
    | _ => none
  | _, _ => none

def StepAligned (w : BridgeWorld) : BridgeAction → Prop
  | .produce _ queued _ => queued = true ∨ w.batch = []
  | .clearConnectionHidden => ∀ s ∈ w.subscription, s.droppedWhileHidden = false
  | .read => ∀ f ∈ w.nextOutput, FrameAligned w f
  | .receive => PollAligned w w.poll
  | _ => True

instance (w : BridgeWorld) (a : BridgeAction) : Decidable (StepAligned w a) := by
  cases a with
  | produce data queued => exact inferInstanceAs (Decidable (queued = true ∨ w.batch = []))
  | clearConnectionHidden =>
    exact inferInstanceAs (Decidable (∀ s ∈ w.subscription, s.droppedWhileHidden = false))
  | read => exact inferInstanceAs (Decidable (∀ f ∈ w.nextOutput, FrameAligned w f))
  | receive => exact inferInstanceAs (Decidable (PollAligned w w.poll))
  | _ => exact .isTrue trivial

/-! ## the events -/

theorem itemsOf_snoc (events : List ViewEvent) (e : ViewEvent) :
    itemsOf (events ++ [e]) = itemsOf events ++ e.item.toList := by
  unfold itemsOf
  rw [filterMap_append]
  cases h : e.item <;> simp [h]

theorem frameItems_snoc (frames : List Frame) (f : Frame) :
    frameItems (frames ++ [f]) = frameItems frames ++ f.item.toList := by
  unfold frameItems
  rw [filterMap_append]
  cases h : f.item <;> simp [h]

section
variable {w : BridgeWorld}

theorem position_emit_output (d : Bytes) (endSeq : Option Nat) (start : Nat) :
    (w.emit (.output d endSeq start)).position = some (start + d.length) := by
  show standsAt _ (itemsOf (w.events ++ [_])) = _
  rw [itemsOf_snoc]
  exact standsAt_snoc_stretch _ _ start d

theorem position_emit_desync : (w.emit .desync).position = none := by
  show standsAt _ (itemsOf (w.events ++ [_])) = _
  rw [itemsOf_snoc]
  exact standsAt_snoc_mark _ _

theorem position_emit_other {e : ViewEvent} (he : e.item = none) :
    (w.emit e).position = w.position := by
  show standsAt _ (itemsOf (w.events ++ [e])) = _
  rw [itemsOf_snoc, he, toList_none, append_nil]
  rfl

theorem Delivers.emit_output (h : Delivers w) {d : Bytes} {start : Nat}
    (hstart : w.Aligned start) (hd : d <+: w.produced.drop start) (endSeq : Option Nat) :
    Delivers (w.emit (.output d endSeq start)) := by
  refine ⟨?_, ?_⟩
  · show Follows _ (itemsOf (w.events ++ [_]))
    rw [itemsOf_snoc]
    exact h.follows.snoc_stretch hstart d
  · show Holds _ (itemsOf (w.events ++ [_]))
    rw [itemsOf_snoc]
    exact h.holds.snoc_stretch hd

theorem Delivers.emit_desync (h : Delivers w) : Delivers (w.emit .desync) := by
  refine ⟨?_, ?_⟩
  · show Follows _ (itemsOf (w.events ++ [_]))
    rw [itemsOf_snoc]
    exact h.follows.snoc_mark
  · show Holds _ (itemsOf (w.events ++ [_]))
    rw [itemsOf_snoc]
    exact h.holds.snoc_mark

theorem Delivers.emit_other (h : Delivers w) {e : ViewEvent} (he : e.item = none) :
    Delivers (w.emit e) := by
  have e' : itemsOf (w.events ++ [e]) = itemsOf w.events := by
    rw [itemsOf_snoc, he, toList_none, append_nil]
  refine ⟨?_, ?_⟩
  · show Follows _ (itemsOf (w.events ++ [e]))
    rw [e']
    exact h.follows
  · show Holds _ (itemsOf (w.events ++ [e]))
    rw [e']
    exact h.holds

end

namespace OutputCursor

/-- what `stream` can do: nothing new, or the cursor goes to `endSeq`, and the data from the old
coordinate on, if it had one, or all of it, if not, is passed on -/
theorem stream_cases (c : OutputCursor) (endSeq : Nat) (data : Bytes) :
    (c.stream endSeq data = (c, .unchanged) ∧ c.endSeq ≠ none) ∨
      ∃ delta, c.stream endSeq data = ({ c with endSeq := some endSeq }, delta) ∧
        (delta = .resync ∨ (c.endSeq = none ∧ delta = .data data) ∨
          ∃ p d, c.endSeq = some p ∧ delta = .data d ∧ d <:+ data ∧ p + d.length = endSeq) := by
  unfold stream
  by_cases hold : c.endSeq.any (endSeq ≤ ·) = true
  · left
    rw [if_pos hold]
    refine ⟨rfl, fun h => ?_⟩
    rw [h] at hold
    cases hold
  right
  rw [if_neg hold]
  by_cases hshort : endSeq < data.length
  · exact ⟨.resync, if_pos hshort, .inl rfl⟩
  show ∃ delta, (if endSeq < data.length then _ else _) = _ ∧ _
  rw [if_neg hshort]
  cases hp : c.endSeq with
  | none => exact ⟨.data data, rfl, .inr (.inl ⟨rfl, rfl⟩)⟩
  | some p =>
    have hlt : p < endSeq := by
      rw [hp] at hold
      simpa using hold
    show ∃ delta, (if p < endSeq - data.length then _ else _) = _ ∧ _
    by_cases hgap : p < endSeq - data.length
    · exact ⟨.resync, if_pos hgap, .inl rfl⟩
    rw [if_neg hgap]
    unfold getFrom
    by_cases hcut : isCharBoundary data (p - (endSeq - data.length)) = true
    · rw [if_pos hcut]
      have hlen : (data.drop (p - (endSeq - data.length))).length = endSeq - p := by
        rw [length_drop]
        omega
      cases hdrop : data.drop (p - (endSeq - data.length)) with
      | nil =>
        rw [hdrop, length_nil] at hlen
        omega
      | cons b rest =>
        refine ⟨_, rfl, .inr (.inr ⟨p, b :: rest, rfl, rfl, ?_, ?_⟩)⟩
        · rw [← hdrop]
          exact drop_suffix _ _
        · rw [← hdrop, hlen]
          omega
    · rw [if_neg hcut]
      exact ⟨.resync, rfl, .inl rfl⟩

theorem recovery_cases (c : OutputCursor) (epoch endSeq : Nat) (data : Bytes) :
    ∃ c' delta, c.recovery epoch endSeq data = (c', delta) ∧
      ((delta = .unchanged ∧ c'.endSeq = c.endSeq ∧ c.endSeq ≠ none) ∨
        (c'.endSeq = some endSeq ∧ (delta = .resync ∨
          ∃ p d, c.endSeq = some p ∧ delta = .data d ∧ d <:+ data ∧ p + d.length = endSeq))) := by
  unfold recovery
  by_cases hfresh : (c.epoch.any (· ≠ epoch) || c.endSeq.isNone) = true
  · exact ⟨⟨some epoch, some endSeq⟩, .resync, if_pos hfresh, .inr ⟨rfl, .inl rfl⟩⟩
  rw [if_neg hfresh]
  have hsome : c.endSeq ≠ none := by
    intro h
    rw [h] at hfresh
    simp at hfresh
  by_cases hback : c.endSeq.any (endSeq < ·) = true
  · exact ⟨⟨some epoch, some endSeq⟩, .resync, if_pos hback, .inr ⟨rfl, .inl rfl⟩⟩
  rw [if_neg hback]
  rcases stream_cases { c with epoch := some epoch } endSeq data with
    ⟨h, _⟩ | ⟨delta, h, hdelta⟩
  · exact ⟨_, _, h, .inl ⟨rfl, rfl, hsome⟩⟩
  refine ⟨_, delta, h, .inr ⟨rfl, ?_⟩⟩
  rcases hdelta with h' | ⟨h', _⟩ | h'
  · exact .inl h'
  · exact absurd h' hsome
  · exact .inr h'

end OutputCursor

/-! ## what is in flight -/

/-- the frames of a subscription are stretches of the output, and meet or have a desync between
them, from `reading` on -/
structure Queued (produced : Bytes) (reading : Option Nat) (s : Subscription) : Prop where
  follows : Follows reading (frameItems s.frames)
  ends : ∀ f, .output f ∈ s.frames →
    EndsAt produced f.stop f.data ∧ (f.endSeq = none ∨ f.endSeq = some f.stop)
  owed : s.droppedWhileHidden = true → s.hidden = true

/-- and the pending batch goes on where they end, unless a flag remembers the gap -/
structure Fed (produced batch : Bytes) (reading : Option Nat) (s : Subscription) : Prop
    extends Queued produced reading s where
  next : s.desynced = false → s.droppedWhileHidden = false →
    ∀ q, standsAt reading (frameItems s.frames) = some q → q + batch.length = produced.length

section
variable {produced batch : Bytes} {reading : Option Nat} {s : Subscription}

theorem fed_new : Fed produced batch none .new where
  follows := trivial
  ends := nofun
  owed h := by cases h
  next _ _ q hq := by cases hq

theorem Queued.mono (h : Queued produced reading s) (data : Bytes) :
    Queued (produced ++ data) reading s := { h with
  ends := fun f hf => ⟨(h.ends f hf).1.mono data, (h.ends f hf).2⟩ }

theorem Queued.flags (h : Queued produced reading s) (desynced : Bool) {hidden dropped : Bool}
    (howed : dropped = true → hidden = true) :
    Queued produced reading ⟨s.frames, desynced, hidden, dropped⟩ :=
  ⟨h.follows, h.ends, howed⟩

theorem Queued.enqueue (h : Queued produced reading s) {f : Frame}
    (hf : f = .desync ∨ ∃ n, f = .notice n) : Queued produced reading (s.enqueue f) := by
  refine ⟨?_, ?_, h.owed⟩
  · show Follows _ (frameItems (s.frames ++ [f]))
    rw [frameItems_snoc]
    rcases hf with rfl | ⟨n, rfl⟩
    · exact h.follows.snoc_mark
    · show Follows _ (frameItems s.frames ++ [])
      rw [append_nil]
      exact h.follows
  · intro o ho
    rcases mem_append.mp ho with hold | hnew
    · exact h.ends o hold
    · rcases hf with rfl | ⟨n, rfl⟩ <;> simp at hnew

theorem standsAt_enqueue_desync :
    standsAt reading (frameItems (s.enqueue .desync).frames) = none := by
  show standsAt _ (frameItems (s.frames ++ [.desync])) = none
  rw [frameItems_snoc]
  exact standsAt_snoc_mark _ _

theorem standsAt_enqueue_notice (n : Notice) :
    standsAt reading (frameItems (s.enqueue (.notice n)).frames) =
      standsAt reading (frameItems s.frames) := by
  show standsAt _ (frameItems (s.frames ++ [.notice n])) = _
  rw [frameItems_snoc]
  show standsAt _ (frameItems s.frames ++ []) = _
  rw [append_nil]

theorem Queued.marked (h : Queued produced reading s) (batch : Bytes) (desynced : Bool)
    {hidden dropped : Bool} (howed : dropped = true → hidden = true) :
    Fed produced batch reading ⟨(s.enqueue .desync).frames, desynced, hidden, dropped⟩ where
  toQueued := (h.enqueue (.inl rfl)).flags desynced howed
  next _ _ q hq := by
    rw [standsAt_enqueue_desync] at hq
    cases hq

theorem Queued.remembered (h : Queued produced reading s) (batch : Bytes)
    (hflag : s.desynced = true ∨ s.droppedWhileHidden = true) : Fed produced batch reading s where
  toQueued := h
  next hd hw _ _ := by
    rcases hflag with h' | h'
    · rw [hd] at h'
      cases h'
    · rw [hw] at h'
      cases h'

theorem Fed.produce (h : Fed produced batch reading s) (data : Bytes) :
    Fed (produced ++ data) (batch ++ data) reading s where
  toQueued := h.toQueued.mono data
  next hd hw q hq := by
    rw [length_append, length_append, ← h.next hd hw q hq, Nat.add_assoc]

theorem Queued.signal (h : Queued produced reading s) (batch : Bytes) (room : Nat) :
    Fed produced batch reading (s.signal room) := by
  unfold Subscription.signal
  by_cases hhidden : s.hidden = true
  · rw [if_pos hhidden]
    exact (h.flags s.desynced fun _ => hhidden).remembered batch (.inr rfl)
  rw [if_neg hhidden]
  cases room with
  | zero => exact (h.flags true h.owed).remembered batch (.inl rfl)
  | succ => exact h.marked batch false h.owed

section
variable (h : Fed produced batch reading s)
include h

theorem Fed.enqueueBatch (hbatch : batch <:+ produced)
    (hflags : s.desynced = false ∧ s.droppedWhileHidden = false) {endSeq : Option Nat}
    (hseq : endSeq = none ∨ endSeq = some produced.length) :
    Fed produced [] reading (s.enqueue (.output ⟨batch, endSeq, produced.length⟩)) := by
  have hends : EndsAt produced produced.length batch := (EndsAt.all produced).of_suffix hbatch
  have hle := hends.length_le
  refine ⟨⟨?_, ?_, h.owed⟩, ?_⟩
  · show Follows _ (frameItems (s.frames ++ [_]))
    rw [frameItems_snoc]
    refine h.follows.snoc_stretch ?_ batch
    cases hstands : standsAt reading (frameItems s.frames) with
    | none => exact .inl rfl
    | some q =>
      right
      have hq := h.next hflags.1 hflags.2 q hstands
      show some q = some (produced.length - batch.length)
      rw [← hq, Nat.add_sub_cancel]
  · intro f hf
    rcases mem_append.mp hf with hold | hnew
    · exact h.ends f hold
    · have e : f = ⟨batch, endSeq, produced.length⟩ := by simpa using hnew
      subst e
      exact ⟨hends, hseq⟩
  intro _ _ q hq
  have hstands : standsAt reading
      (frameItems (s.frames ++ [.output ⟨batch, endSeq, produced.length⟩])) =
      some (produced.length - batch.length + batch.length) := by
    rw [frameItems_snoc]
    exact standsAt_snoc_stretch _ _ _ _
  have e := some.inj (hq.symm.trans hstands)
  show q + 0 = produced.length
  omega

theorem Fed.deliverBatch (hbatch : batch <:+ produced) {endSeq : Option Nat}
    (hseq : endSeq = none ∨ endSeq = some produced.length) (room : Nat) :
    Fed produced [] reading
      (s.deliver (.output ⟨batch, endSeq, produced.length⟩) true room) := by
  unfold Subscription.deliver
  cases hhidden : s.hidden with
  | true => exact (h.toQueued.flags s.desynced fun _ => rfl).remembered [] (.inr rfl)
  | false =>
    have hdropped : s.droppedWhileHidden = false := by
      cases hd : s.droppedWhileHidden with
      | false => rfl
      | true =>
        rw [h.owed hd] at hhidden
        cases hhidden
    cases hdesynced : s.desynced with
    | true =>
      cases room with
      | zero => exact h.toQueued.remembered [] (.inl hdesynced)
      | succ room =>
        have hmarked := h.toQueued.marked batch false h.owed
        cases room with
        | zero => exact (hmarked.toQueued.flags true h.owed).remembered [] (.inl rfl)
        | succ => exact hmarked.enqueueBatch hbatch ⟨rfl, hdropped⟩ hseq
    | false =>
      cases room with
      | zero => exact (h.toQueued.flags true h.owed).remembered [] (.inl rfl)
      | succ => exact h.enqueueBatch hbatch ⟨hdesynced, hdropped⟩ hseq

theorem Fed.enqueueNotice (n : Notice) :
    Fed produced batch reading (s.enqueue (.notice n)) where
  toQueued := h.toQueued.enqueue (.inr ⟨n, rfl⟩)
  next hd hw q hq := by
    rw [standsAt_enqueue_notice] at hq
    exact h.next hd hw q hq

theorem Fed.deliverNotice (n : Notice) (room : Nat) :
    Fed produced batch reading (s.deliver (.notice n) false room) := by
  unfold Subscription.deliver
  rw [Bool.and_false, if_neg Bool.false_ne_true]
  cases hdesynced : s.desynced with
  | true =>
    cases room with
    | zero => exact h
    | succ room =>
      have hmarked := h.toQueued.marked batch false h.owed
      cases room with
      | zero => exact hmarked
      | succ => exact hmarked.enqueueNotice n
  | false =>
    cases room with
    | zero => exact h
    | succ => exact h.enqueueNotice n

theorem Fed.setHidden (shouldHide : Bool) (room : Nat) :
    Fed produced batch reading (s.setHidden shouldHide room) := by
  unfold Subscription.setHidden
  cases shouldHide with
  | true => exact ⟨h.toQueued.flags s.desynced fun _ => rfl, h.next⟩
  | false =>
    cases hhidden : s.hidden with
    | false => exact h
    | true =>
      have hnone : false = true → false = true := id
      cases hdropped : s.droppedWhileHidden with
      | true =>
        cases room with
        | zero => exact (h.toQueued.flags true hnone).remembered batch (.inl rfl)
        | succ => exact h.toQueued.marked batch s.desynced hnone
      | false =>
        show Fed produced batch reading ⟨s.frames, s.desynced, false, false⟩
        exact ⟨h.toQueued.flags s.desynced hnone, fun hd _ => h.next hd hdropped⟩

theorem Fed.clearHidden (hs : s.droppedWhileHidden = false) :
    Fed produced batch reading s.clearHidden where
  toQueued := h.toQueued.flags s.desynced nofun
  next hd _ := h.next hd hs

theorem Fed.read {f : Frame} {rest : List Frame} (hf : s.frames = f :: rest) :
    Fed produced batch (standsAt reading (frameItems [f])) { s with frames := rest } := by
  have happend : frameItems s.frames = frameItems [f] ++ frameItems rest := by
    rw [hf]
    exact filterMap_append (l := [f])
  refine ⟨⟨?_, ?_, h.owed⟩, ?_⟩
  · have hfollows := h.follows
    rw [happend, follows_append] at hfollows
    exact hfollows.2
  · intro o ho
    refine h.ends o ?_
    rw [hf]
    exact mem_cons_of_mem f ho
  intro hd hw q hq
  refine h.next hd hw q ?_
  rw [happend, standsAt_append]
  exact hq

end

end

/-! ## what the daemon says -/

/-- a snapshot is a stretch of the output; of a legacy snapshot the tail is -/
def Answer.Holds (produced : Bytes) : Answer → Prop
  | .recovery s => EndsAt produced s.endSeq s.delta
  | .replay s stop tail =>
    tail ≤ s.data.length ∧ EndsAt produced stop (s.data.drop (s.data.length - tail))
  | _ => True

theorem Answer.Holds.mono {produced : Bytes} {a : Answer} (h : a.Holds produced) (more : Bytes) :
    a.Holds (produced ++ more) := by
  cases a with
  | recovery => exact EndsAt.mono h more
  | replay => exact ⟨h.1, EndsAt.mono h.2 more⟩
  | gone => trivial
  | unsupported => trivial
  | failed => trivial

/-- the daemon's buffers, what is in flight and what a poll was told -/
structure Sourced (w : BridgeWorld) : Prop where
  accounting : ReplayBuffer.Accounting w.produced w.replay
  batched : w.batch <:+ w.produced
  batchEnd : w.batch ≠ [] → w.batchEndSeq = w.produced.length
  fed : ∀ s, w.subscription = some s → Fed w.produced w.batch w.reading s
  unread : w.subscription = none → w.reading = none
  answered : ∀ a, w.poll = .answered a → a.Holds w.produced

section
variable {w : BridgeWorld}

theorem Sourced.subscriber (h : Sourced w) {g : Subscription → Subscription}
    (hg : ∀ s, w.subscription = some s → Fed w.produced w.batch w.reading s →
      Fed w.produced w.batch w.reading (g s)) :
    Sourced { w with subscription := w.subscription.map g } := by
  refine ⟨h.accounting, h.batched, h.batchEnd, ?_, ?_, h.answered⟩
  · intro s hs
    obtain ⟨s', hs', rfl⟩ := map_eq_some_iff.mp hs
    exact hg s' hs' (h.fed s' hs')
  · intro hs
    exact h.unread (map_eq_none_iff.mp hs)

theorem Sourced.produce (h : Sourced w) (data : Bytes) {queued : Bool} (room : Nat)
    (hok : queued = true ∨ w.batch = []) : Sourced (w.produce data queued room) := by
  have haccounting := ReplayBuffer.accounting_push h.accounting data
  have hanswered : ∀ a, w.poll = .answered a → a.Holds (w.produced ++ data) :=
    fun a ha => (h.answered a ha).mono data
  unfold BridgeWorld.produce
  cases queued with
  | true =>
    refine ⟨haccounting, ?_, fun _ => haccounting.pushed, ?_, h.unread, hanswered⟩
    · obtain ⟨before, hbefore⟩ := h.batched
      refine ⟨before, ?_⟩
      show before ++ (w.batch ++ data) = w.produced ++ data
      rw [← append_assoc, hbefore]
    · exact fun s hs => (h.fed s hs).produce data
  | false =>
    have hempty : w.batch = [] := by
      rcases hok with h' | h'
      · cases h'
      · exact h'
    refine ⟨haccounting, ?_, fun hne => absurd hempty hne, ?_, ?_, hanswered⟩
    · show w.batch <:+ w.produced ++ data
      rw [hempty]
      exact nil_suffix
    · intro s hs
      obtain ⟨s', hs', rfl⟩ := map_eq_some_iff.mp hs
      exact ((h.fed s' hs').toQueued.mono data).signal w.batch room
    · intro hs
      exact h.unread (map_eq_none_iff.mp hs)

theorem Sourced.flush (h : Sourced w) (seq : Bool) (room : Nat) : Sourced (w.flush seq room) := by
  unfold BridgeWorld.flush
  by_cases hempty : w.batch = []
  · rw [if_pos hempty]
    exact h
  rw [if_neg hempty]
  refine ⟨h.accounting, nil_suffix, fun hne => absurd rfl hne, ?_, ?_, h.answered⟩
  · intro s hs
    obtain ⟨s', hs', rfl⟩ := map_eq_some_iff.mp hs
    have hend := h.batchEnd hempty
    rw [hend]
    refine (h.fed s' hs').deliverBatch h.batched ?_ room
    cases seq with
    | true => exact .inr rfl
    | false => exact .inl rfl
  · intro hs
    exact h.unread (map_eq_none_iff.mp hs)

theorem Sourced.subscribe (h : Sourced w) : Sourced w.subscribe := by
  unfold BridgeWorld.subscribe
  by_cases hnone : w.subscription = none
  · rw [if_pos hnone]
    refine ⟨h.accounting, h.batched, h.batchEnd, ?_, fun _ => h.unread hnone, h.answered⟩
    intro s hs
    cases hs
    show Fed w.produced w.batch w.reading .new
    rw [h.unread hnone]
    exact fed_new
  · rw [if_neg hnone]
    exact h

theorem window_suffix (h : Sourced w) : w.replay.chunks.flatten <:+ w.produced := by
  rw [show w.replay.chunks.flatten = _ from h.accounting.isWindow.flatten]
  exact drop_suffix _ _

theorem recovery_ends (h : Sourced w) :
    EndsAt w.produced w.replay.recoverySnapshot.endSeq w.replay.recoverySnapshot.delta := by
  have hend : w.replay.recoverySnapshot.endSeq = w.produced.length := h.accounting.pushed
  rw [hend]
  exact (EndsAt.all _).of_suffix
    ((ReplayBuffer.recovery_suffix h.accounting).trans (window_suffix h))

theorem snapshot_tail (h : Sourced w) :
    w.replay.chunks.flatten.length ≤ w.replay.snapshot.data.length ∧
      w.replay.snapshot.data.drop
        (w.replay.snapshot.data.length - w.replay.chunks.flatten.length) =
        w.replay.chunks.flatten := by
  rw [ReplayBuffer.snapshot_data h.accounting, length_append, Nat.add_sub_cancel]
  exact ⟨Nat.le_add_left _ _, drop_left⟩

theorem Sourced.ask (h : Sourced w) (outcome : Outcome) : Sourced (w.ask outcome) := by
  unfold BridgeWorld.ask
  by_cases hask : w.poll = .asking ∨ (w.phase = .polling ∧ w.poll = .idle)
  · rw [if_pos hask]
    refine ⟨h.accounting, h.batched, h.batchEnd, h.fed, h.unread, ?_⟩
    intro a ha
    obtain rfl := Poll.answered.inj ha
    cases outcome with
    | answered =>
      cases hlegacy : w.state.legacySnapshots with
      | true =>
        obtain ⟨hle, htail⟩ := snapshot_tail h
        refine ⟨hle, ?_⟩
        rw [htail]
        exact (EndsAt.all _).of_suffix (window_suffix h)
      | false =>
        show EndsAt w.produced w.replay.recoverySnapshot.endSeq w.replay.recoverySnapshot.delta
        exact recovery_ends h
    | gone => trivial
    | unsupported => cases w.state.legacySnapshots <;> trivial
    | failed => trivial
  · rw [if_neg hask]
    exact h

theorem Sourced.bridge (h : Sourced w) (phase : Phase) {poll : Poll} (state : SessionBridgeState)
    (events : List ViewEvent) (viewStart : Nat)
    (hpoll : ∀ a, poll = .answered a → a.Holds w.produced) :
    Sourced { w with
      phase := phase, poll := poll, state := state, events := events, viewStart := viewStart } :=
  ⟨h.accounting, h.batched, h.batchEnd, h.fed, h.unread, hpoll⟩

theorem Sourced.lost (h : Sourced w) (phase : Phase) {reading : Option Nat}
    (hreading : reading = none) :
    Sourced { w with phase := phase, subscription := none, reading := reading } :=
  ⟨h.accounting, h.batched, h.batchEnd, nofun, fun _ => hreading, h.answered⟩

theorem Sourced.read (h : Sourced w) {s : Subscription} (hs : w.subscription = some s) {f : Frame}
    {rest : List Frame} (hf : s.frames = f :: rest) {reading : Option Nat}
    (hreading : reading = standsAt w.reading (frameItems [f])) :
    Sourced { w with subscription := some { s with frames := rest }, reading := reading } := by
  refine ⟨h.accounting, h.batched, h.batchEnd, ?_, nofun, h.answered⟩
  intro s' hs'
  cases hs'
  rw [hreading]
  exact (h.fed s hs).read hf

end

/-! ## what the view got -/

/-- the cursor, while it has a coordinate and no legacy snapshot comes between, is where the view
stands; without one, the last frame read is -/
structure Shown (w : BridgeWorld) : Prop where
  delivers : Delivers w
  cursor : ∀ p, w.state.outputCursor.endSeq = some p →
    w.state.legacySnapshots = false ∨ w.reading ≠ none → w.Aligned p
  fresh : w.state.outputCursor.endSeq = none → ∀ r, w.reading = some r → w.Aligned r

/-- a poll runs in the phases of `poll_session`, frames are read in those of `stream_session` -/
structure Phased (w : BridgeWorld) : Prop where
  reads : w.reading ≠ none → w.phase = .streaming
  polled : w.poll ≠ .idle → w.phase = .polling ∨ w.phase = .catchUp
  recovers : ∀ s, w.poll = .answered (.recovery s) → w.state.legacySnapshots = false
  replays : ∀ s stop tail, w.poll = .answered (.replay s stop tail) →
    w.state.legacySnapshots = true
  unstarted : w.phase = .idle → w.events = [] ∧ w.state.outputCursor.endSeq = none

section
variable {w : BridgeWorld} {f : OutputFrame}

theorem Phased.not_reading (h : Phased w) (hphase : w.phase ≠ .streaming) : w.reading = none := by
  cases hreading : w.reading with
  | none => rfl
  | some r => exact absurd (h.reads (by rw [hreading]; exact some_ne_none r)) hphase

theorem Phased.not_reading_of_poll (h : Phased w) (hpoll : w.poll ≠ .idle) :
    w.reading = none := by
  refine h.not_reading fun hphase => ?_
  rcases h.polled hpoll with h' | h'
  · rw [hphase] at h'
    cases h'
  · rw [hphase] at h'
    cases h'

theorem shown_of_position {stop : Nat} (hd : Delivers w) (hposition : w.position = some stop)
    (hcursor : w.state.outputCursor.endSeq = none ∨ w.state.outputCursor.endSeq = some stop)
    (hreading : w.reading = none ∨ w.reading = some stop) : Shown w := by
  refine ⟨hd, ?_, ?_⟩
  · intro p hp _
    rcases hcursor with h | h
    · rw [h] at hp
      cases hp
    · cases h.symm.trans hp
      exact .inr hposition
  · intro _ r hr
    rcases hreading with h | h
    · rw [h] at hr
      cases hr
    · cases h.symm.trans hr
      exact .inr hposition

theorem shown_of_announced (hd : Delivers w) (hposition : w.position = none) : Shown w :=
  ⟨hd, fun _ _ _ => .inl hposition, fun _ _ _ => .inl hposition⟩

theorem shown_of_legacy (hd : Delivers w) (hlegacy : w.state.legacySnapshots = true)
    (hreading : w.reading = none) : Shown w := by
  refine ⟨hd, ?_, ?_⟩
  · intro p _ h
    rcases h with h | h
    · rw [hlegacy] at h
      cases h
    · exact absurd hreading h
  · intro _ r hr
    rw [hreading] at hr
    cases hr

theorem Delivers.data (h : Delivers w) {d : Bytes} {stop : Nat} (hends : EndsAt w.produced stop d)
    (haligned : w.Aligned (stop - d.length)) (endSeq : Option Nat) :
    Delivers (w.emit (.output d endSeq (stop - d.length))) ∧
      (w.emit (.output d endSeq (stop - d.length))).position = some stop := by
  refine ⟨h.emit_output haligned hends.place endSeq, ?_⟩
  rw [position_emit_output, Nat.sub_add_cancel hends.length_le]

/-! ### a frame -/

theorem Shown.frame_start (h : Shown w) (hf : FrameAligned w f)
    (hnext : ∀ r, w.reading = some r → r = f.start)
    (hplain : w.state.outputCursor.endSeq = none ∨ f.endSeq = none) : w.Aligned f.start := by
  unfold FrameAligned PlacedBy at hf
  cases hcursor : w.state.outputCursor.endSeq with
  | none =>
    rw [hcursor] at hf
    cases hreading : w.reading with
    | none => exact hf hreading
    | some r =>
      rw [← hnext r hreading]
      exact h.fresh hcursor r hreading
  | some =>
    rcases hplain with h' | h'
    · rw [hcursor] at h'
      cases h'
    · rw [hcursor, h'] at hf
      exact hf

theorem Shown.frame_cursor (h : Shown w) (hf : FrameAligned w f) {p seq : Nat}
    (hcursor : w.state.outputCursor.endSeq = some p) (hseq : f.endSeq = some seq) :
    w.Aligned p := by
  unfold FrameAligned PlacedBy at hf
  rw [hcursor, hseq] at hf
  cases hlegacy : w.state.legacySnapshots with
  | false => exact h.cursor p hcursor (.inl hlegacy)
  | true =>
    cases hreading : w.reading with
    | none => exact hf hlegacy hreading
    | some r => exact h.cursor p hcursor (.inr (by rw [hreading]; exact some_ne_none r))

theorem handleOutput_seq {seq : Nat} (hseq : f.endSeq = some seq) {c : OutputCursor}
    {delta : CursorDelta} (hstream : w.state.outputCursor.stream seq f.data = (c, delta)) :
    w.handleOutput f =
      ({ w.setCursor c with reading := some (f.start + f.data.length) }).emitCursorDelta
        delta (some seq) f.stop := by
  simp only [BridgeWorld.handleOutput, hseq, hstream]

theorem handleOutput_plain (hseq : f.endSeq = none) :
    w.handleOutput f =
      ({ w.setCursor .reset with reading := some (f.start + f.data.length) }).emit
        (.output f.data none (f.stop - f.data.length)) := by
  unfold BridgeWorld.handleOutput
  rw [hseq]
  rfl

theorem Shown.handleOutput (h : Shown w) (hf : FrameAligned w f)
    (hends : EndsAt w.produced f.stop f.data) (hseq : f.endSeq = none ∨ f.endSeq = some f.stop)
    (hnext : ∀ r, w.reading = some r → r = f.start) : Shown (w.handleOutput f) := by
  have hstop : some (f.start + f.data.length) = some f.stop :=
    congrArg some (Nat.sub_add_cancel hends.length_le)
  -- the world the event is emitted in
  have hset : ∀ c, Delivers { w.setCursor c with reading := some (f.start + f.data.length) } :=
    fun c => ⟨h.delivers.follows, h.delivers.holds⟩
  rcases hseq with hseq | hseq
  · have hstart := h.frame_start hf hnext (.inr hseq)
    rw [handleOutput_plain hseq]
    obtain ⟨hd, hposition⟩ := (hset .reset).data hends hstart none
    exact shown_of_position hd hposition (.inl rfl) (.inr hstop)
  rcases w.state.outputCursor.stream_cases f.stop f.data with
    ⟨hstream, hcursor⟩ | ⟨delta, hstream, hdelta⟩
  · rw [handleOutput_seq hseq hstream]
    refine ⟨hset _, ?_, fun hnone => absurd hnone hcursor⟩
    intro p hp _
    exact h.frame_cursor hf hp hseq
  rw [handleOutput_seq hseq hstream]
  rcases hdelta with rfl | ⟨hfresh, rfl⟩ | ⟨p, d, hp, rfl, hsuffix, hlen⟩
  · exact shown_of_announced (hset _).emit_desync position_emit_desync
  · have hstart := h.frame_start hf hnext (.inl hfresh)
    obtain ⟨hd, hposition⟩ := (hset ⟨w.state.outputCursor.epoch, some f.stop⟩).data hends hstart
      (some f.stop)
    exact shown_of_position hd hposition (.inr rfl) (.inr hstop)
  have haligned : w.Aligned (f.stop - d.length) := by
    rw [← hlen, Nat.add_sub_cancel]
    exact h.frame_cursor hf hp hseq
  obtain ⟨hd, hposition⟩ := (hset ⟨w.state.outputCursor.epoch, some f.stop⟩).data
    (hends.of_suffix hsuffix) haligned (some f.stop)
  exact shown_of_position hd hposition (.inr rfl) (.inr hstop)

theorem Shown.applyRecovery (h : Shown w) {s : TerminalRecoverySnapshot}
    (hends : EndsAt w.produced s.endSeq s.delta) (hlegacy : w.state.legacySnapshots = false)
    (hreading : w.reading = none) : Shown (w.applyRecovery s) := by
  have hset : ∀ c, Delivers (w.setCursor c) := fun c => ⟨h.delivers.follows, h.delivers.holds⟩
  unfold BridgeWorld.applyRecovery
  obtain ⟨c', delta, hrecovery, hcases⟩ :=
    w.state.outputCursor.recovery_cases s.checkpointEpoch s.endSeq s.delta
  rw [hrecovery]
  rcases hcases with ⟨rfl, hsame, hcursor⟩ | ⟨hc', rfl | ⟨p, d, hp, rfl, hsuffix, hlen⟩⟩
  · refine ⟨hset c', ?_, fun hnone => absurd (hsame.symm.trans hnone) hcursor⟩
    intro p hp _
    exact h.cursor p (hsame.symm.trans hp) (.inl hlegacy)
  · exact shown_of_announced (hset c').emit_desync position_emit_desync
  have haligned : w.Aligned (s.endSeq - d.length) := by
    rw [← hlen, Nat.add_sub_cancel]
    exact h.cursor p hp (.inl hlegacy)
  obtain ⟨hd, hposition⟩ := (hset c').data (hends.of_suffix hsuffix) haligned (some s.endSeq)
  exact shown_of_position hd hposition (.inr hc') (.inl hreading)

theorem replaySnapshotDelta_cases (previous current : Bytes) :
    replaySnapshotDelta previous current = .unchanged ∨
      replaySnapshotDelta previous current = .mismatch ∨
      ∃ d, replaySnapshotDelta previous current = .delta d ∧ previous ++ d = current ∧
        current ≠ previous := by
  unfold replaySnapshotDelta
  by_cases hempty : current = []
  · exact .inl (if_pos hempty)
  rw [if_neg hempty]
  by_cases hfirst : previous = []
  · refine .inr (.inr ⟨current, if_pos hfirst, ?_, ?_⟩)
    · rw [hfirst, nil_append]
    · rw [hfirst]
      exact hempty
  rw [if_neg hfirst]
  by_cases hsame : current = previous
  · exact .inl (if_pos hsame)
  rw [if_neg hsame]
  by_cases hprefix : previous.isPrefixOf current = true
  · refine .inr (.inr ⟨current.drop previous.length, if_pos hprefix, ?_, hsame⟩)
    exact prefix_iff_eq_append.mp (List.isPrefixOf_iff_prefix.mp hprefix)
  · exact .inr (.inl (if_neg hprefix))

theorem Delivers.applySnapshotDelta (h : Delivers w) {current : Bytes} {stop tail : Nat}
    (htail : EndsAt w.produced stop (current.drop (current.length - tail)))
    (haligned : LegacyAligned w current stop tail) :
    Delivers (w.applySnapshotDelta current stop) := by
  have hset : Delivers { w with state := { w.state with lastSnapshot := current } } :=
    ⟨h.follows, h.holds⟩
  unfold BridgeWorld.applySnapshotDelta
  rcases replaySnapshotDelta_cases w.state.lastSnapshot current with
    hc | hc | ⟨d, hc, happend, hne⟩
  · rw [hc]
    exact h
  · rw [hc]
    exact hset.emit_desync
  rw [hc]
  obtain ⟨hle, hstart⟩ := haligned ⟨d, happend⟩ hne
  have hlen : current.length = w.state.lastSnapshot.length + d.length := by
    rw [← happend, length_append]
  have hd : current.length - w.state.lastSnapshot.length = d.length := by omega
  rw [hd] at hle hstart
  have hsuffix : d <:+ current.drop (current.length - tail) := by
    have hdrop : d = current.drop w.state.lastSnapshot.length := by
      rw [← happend, drop_left]
    have hsplit : w.state.lastSnapshot.length =
        current.length - tail + (w.state.lastSnapshot.length - (current.length - tail)) := by
      omega
    rw [hdrop, hsplit, ← drop_drop]
    exact drop_suffix _ _
  exact (hset.data (htail.of_suffix hsuffix) hstart none).1

end

/-! ## every step keeps it -/

/-- the invariant of a run -/
structure Kept (w : BridgeWorld) : Prop where
  sourced : Sourced w
  shown : Shown w
  phased : Phased w

def Touched (w w' : BridgeWorld) : Prop :=
  ∃ state events, w' = { w with state := state, events := events }

section
variable {w : BridgeWorld} {w' : BridgeWorld}

theorem Touched.emit (h : Touched w w') (e : ViewEvent) : Touched w (w'.emit e) := by
  obtain ⟨state, events, rfl⟩ := h
  exact ⟨state, events ++ [e], rfl⟩

theorem touched_emitCursorDelta (c : OutputCursor) (delta : CursorDelta) (endSeq : Option Nat)
    (stop : Nat) : Touched w ((w.setCursor c).emitCursorDelta delta endSeq stop) := by
  cases delta with
  | unchanged => exact ⟨_, _, rfl⟩
  | data => exact ⟨_, _, rfl⟩
  | resync => exact ⟨_, _, rfl⟩

theorem touched_applyRecovery (s : TerminalRecoverySnapshot) : Touched w (w.applyRecovery s) :=
  touched_emitCursorDelta _ _ _ _

theorem touched_applySnapshotDelta (current : Bytes) (stop : Nat) :
    Touched w (w.applySnapshotDelta current stop) := by
  unfold BridgeWorld.applySnapshotDelta
  cases replaySnapshotDelta w.state.lastSnapshot current with
  | unchanged => exact ⟨_, _, rfl⟩
  | delta => exact ⟨_, _, rfl⟩
  | mismatch => exact ⟨_, _, rfl⟩

theorem applySnapshotDelta_legacy (current : Bytes) (stop : Nat) :
    (w.applySnapshotDelta current stop).state.legacySnapshots = w.state.legacySnapshots ∧
      (w.applySnapshotDelta current stop).reading = w.reading := by
  unfold BridgeWorld.applySnapshotDelta
  cases replaySnapshotDelta w.state.lastSnapshot current with
  | unchanged => exact ⟨rfl, rfl⟩
  | delta => exact ⟨rfl, rfl⟩
  | mismatch => exact ⟨rfl, rfl⟩

theorem touched_catchUpFailed : Touched w w.catchUpFailed := by
  unfold BridgeWorld.catchUpFailed
  by_cases hphase : w.phase = .catchUp
  · rw [if_pos hphase]
    exact ⟨_, _, rfl⟩
  · rw [if_neg hphase]
    exact ⟨_, _, rfl⟩

theorem Sourced.pollDone (h : Sourced w) (hw : Touched w w') : Sourced w'.pollDone := by
  obtain ⟨state, events, rfl⟩ := hw
  exact h.bridge _ _ _ _ nofun

theorem Phased.pollDone (hw : Touched w w') (hreading : w.reading = none)
    (hphase : w.phase = .polling ∨ w.phase = .catchUp) : Phased w'.pollDone := by
  obtain ⟨state, events, rfl⟩ := hw
  refine ⟨fun hr => absurd hreading hr, fun hp => absurd rfl hp, ?_, ?_, ?_⟩
  · intro s hs
    cases hs
  · intro s stop tail hs
    cases hs
  intro hidle
  rcases hphase with h | h
  · simp [BridgeWorld.pollDone, h] at hidle
  · simp [BridgeWorld.pollDone, h] at hidle

theorem Shown.pollDone (h : Shown w) : Shown w.pollDone :=
  ⟨⟨h.delivers.follows, h.delivers.holds⟩, h.cursor, h.fresh⟩

theorem Shown.emit_other (h : Shown w) {e : ViewEvent} (he : e.item = none) : Shown (w.emit e) := by
  have hposition := position_emit_other (w := w) he
  refine ⟨h.delivers.emit_other he, ?_, ?_⟩
  · intro p hp hl
    unfold BridgeWorld.Aligned
    rw [hposition]
    exact h.cursor p hp hl
  intro hnone r hr
  unfold BridgeWorld.Aligned
  rw [hposition]
  exact h.fresh hnone r hr

theorem Shown.exitOnce (h : Shown w) (exitCode : Int) :
    Shown (w.emitTerminalExitOnce exitCode) := by
  unfold BridgeWorld.emitTerminalExitOnce
  by_cases hdone : w.state.terminalExitEmitted = true
  · rw [if_pos hdone]
    exact h
  rw [if_neg hdone]
  have hset : Shown { w with state := { w.state with terminalExitEmitted := true } } :=
    ⟨⟨h.delivers.follows, h.delivers.holds⟩, h.cursor, h.fresh⟩
  exact hset.emit_other rfl

theorem Shown.unread (h : Shown w) (phase : Phase) (subscription : Option Subscription) :
    Shown { w with phase := phase, subscription := subscription, reading := none } := by
  refine ⟨⟨h.delivers.follows, h.delivers.holds⟩, ?_, nofun⟩
  intro p hp hl
  rcases hl with hl | hl
  · exact h.cursor p hp (.inl hl)
  · exact absurd rfl hl

theorem Touched.exitOnce (h : Touched w w') (exitCode : Int) :
    Touched w (w'.emitTerminalExitOnce exitCode) := by
  unfold BridgeWorld.emitTerminalExitOnce
  by_cases hdone : w'.state.terminalExitEmitted = true
  · rw [if_pos hdone]
    exact h
  · rw [if_neg hdone]
    obtain ⟨state, events, rfl⟩ := h
    exact ⟨_, _, rfl⟩

theorem touched_handleOutput (f : OutputFrame) :
    Touched { w with reading := some (f.start + f.data.length) } (w.handleOutput f) := by
  cases hseq : f.endSeq with
  | none =>
    rw [handleOutput_plain hseq]
    exact ⟨_, _, rfl⟩
  | some =>
    rw [handleOutput_seq hseq rfl]
    exact touched_emitCursorDelta _ _ _ _

theorem phased_of_idle (hpoll : w.poll = .idle) (hreads : w.reading ≠ none → w.phase = .streaming)
    (hphase : w.phase ≠ .idle) : Phased w := by
  refine ⟨hreads, fun hp => absurd hpoll hp, ?_, ?_, fun h => absurd h hphase⟩
  · intro s hs
    rw [hpoll] at hs
    cases hs
  · intro s stop tail hs
    rw [hpoll] at hs
    cases hs

theorem Phased.idle (h : Phased w) (hpolling : w.phase ≠ .polling) (hcatch : w.phase ≠ .catchUp) :
    w.poll = .idle := by
  by_contra hp
  rcases h.polled hp with h' | h'
  · exact hpolling h'
  · exact hcatch h'

theorem Kept.finish (h : Kept w) (hw : Touched w w') (hshown : Shown w') (hpoll : w.poll = .idle) :
    Kept w'.finish := by
  obtain ⟨state, events, rfl⟩ := hw
  have hsourced : Sourced { w with state := state, events := events } :=
    h.sourced.bridge w.phase state events w.viewStart h.sourced.answered
  exact ⟨hsourced.lost .ended rfl, hshown.unread .ended none,
    phased_of_idle hpoll (fun hr => absurd rfl hr) (nofun)⟩

theorem read_cases (w : BridgeWorld) :
    w.read = w ∨ ∃ s f rest, w.phase = .streaming ∧ w.subscription = some s ∧
      s.frames = f :: rest ∧
      w.read =
        ({ w with subscription := some { s with frames := rest } }).handleStreamMessage f := by
  by_cases hphase : w.phase = .streaming
  · cases hs : w.subscription with
    | none =>
      left
      simp only [BridgeWorld.read, hphase, hs]
    | some s =>
      cases hf : s.frames with
      | nil =>
        left
        simp only [BridgeWorld.read, hphase, hs, hf]
      | cons f rest =>
        right
        refine ⟨s, f, rest, hphase, rfl, hf, ?_⟩
        simp only [BridgeWorld.read, hphase, hs, hf]
  · left
    unfold BridgeWorld.read
    split
    · exact absurd (by assumption) hphase
    · rfl

theorem Kept.read (h : Kept w) (hok : StepAligned w .read) : Kept w.read := by
  rcases read_cases w with hsame | ⟨s, f, rest, hphase, hs, hf, hread⟩
  · rw [hsame]
    exact h
  rw [hread]
  have hpoll : w.poll = .idle := h.phased.idle (by simp [hphase]) (by simp [hphase])
  have hstreaming : w.phase ≠ .idle := by simp [hphase]
  have hfed := h.sourced.fed s hs
  have hshown : Shown { w with subscription := some { s with frames := rest } } :=
    ⟨⟨h.shown.delivers.follows, h.shown.delivers.holds⟩, h.shown.cursor, h.shown.fresh⟩
  cases f with
  | output f =>
    have hmem : .output f ∈ s.frames := by
      rw [hf]
      exact mem_cons_self
    obtain ⟨hends, hseq⟩ := hfed.ends f hmem
    have haligned : FrameAligned w f := hok f (by simp [BridgeWorld.nextOutput, hphase, hs, hf])
    have hnext : ∀ r, w.reading = some r → r = f.start := by
      intro r hr
      have hfollows := hfed.follows
      rw [hf] at hfollows
      rcases hfollows.1 with h' | h'
      · rw [hr] at h'
        cases h'
      · exact some.inj (hr.symm.trans h')
    have hsourced : Sourced { w with
        subscription := some { s with frames := rest }
        reading := some (f.start + f.data.length) } := h.sourced.read hs hf rfl
    have hout := hshown.handleOutput haligned hends hseq hnext
    obtain ⟨state, events, e⟩ :=
      touched_handleOutput (w := { w with subscription := some { s with frames := rest } }) f
    show Kept (({ w with subscription := some { s with frames := rest } }).handleOutput f)
    rw [e] at hout ⊢
    exact ⟨hsourced.bridge w.phase state events w.viewStart h.sourced.answered, hout,
      phased_of_idle hpoll (fun _ => hphase) hstreaming⟩
  | desync =>
    have hsourced : Sourced { w with
        subscription := some { s with frames := rest }
        reading := none } := h.sourced.read hs hf rfl
    have hdelivers : Delivers { w with
        subscription := some { s with frames := rest }
        reading := none
        state := { w.state with outputCursor := .reset } } :=
      ⟨h.shown.delivers.follows, h.shown.delivers.holds⟩
    exact ⟨hsourced.bridge _ _ _ _ h.sourced.answered,
      shown_of_announced hdelivers.emit_desync position_emit_desync,
      phased_of_idle hpoll (fun _ => hphase) hstreaming⟩
  | notice n =>
    have hsourced : Sourced { w with
        subscription := some { s with frames := rest }
        reading := w.reading } := h.sourced.read hs hf rfl
    have hkept : Kept { w with subscription := some { s with frames := rest } } :=
      ⟨hsourced, hshown, phased_of_idle hpoll (fun _ => hphase) hstreaming⟩
    have hself : Touched { w with subscription := some { s with frames := rest } }
        { w with subscription := some { s with frames := rest } } := ⟨_, _, rfl⟩
    cases n with
    | exit exitCode =>
      exact hkept.finish (hself.exitOnce exitCode) (hshown.exitOnce exitCode) hpoll
    | killed =>
      exact hkept.finish ((hself.emit _).exitOnce (-1)) ((hshown.emit_other rfl).exitOnce (-1))
        hpoll
    | unknown => exact hkept

theorem Kept.receive (h : Kept w) (hok : StepAligned w .receive) : Kept w.receive := by
  have hself : Touched w w := ⟨_, _, rfl⟩
  unfold BridgeWorld.receive
  cases hpoll : w.poll with
  | idle => exact h
  | asking => exact h
  | answered a =>
    have hbusy : w.poll ≠ .idle := by simp [hpoll]
    have hreading := h.phased.not_reading_of_poll hbusy
    have hphase := h.phased.polled hbusy
    have hanswer := h.sourced.answered a hpoll
    cases a with
    | recovery s =>
      have hshown := h.shown.applyRecovery hanswer (h.phased.recovers s hpoll) hreading
      have htouched := touched_applyRecovery (w := w) s
      exact ⟨h.sourced.pollDone htouched, hshown.pollDone, Phased.pollDone htouched hreading hphase⟩
    | replay s stop tail =>
      have haligned : PollAligned w w.poll := hok
      rw [hpoll] at haligned
      have hdelivers := h.shown.delivers.applySnapshotDelta hanswer.2 haligned
      have htouched := touched_applySnapshotDelta (w := w) s.data stop
      obtain ⟨hlegacy, hsame⟩ := applySnapshotDelta_legacy (w := w) s.data stop
      have hshown := shown_of_legacy hdelivers (hlegacy.trans (h.phased.replays s stop tail hpoll))
        (hsame.trans hreading)
      exact ⟨h.sourced.pollDone htouched, hshown.pollDone, Phased.pollDone htouched hreading hphase⟩
    | gone =>
      exact ⟨h.sourced.pollDone hself, h.shown.pollDone, Phased.pollDone hself hreading hphase⟩
    | failed =>
      have htouched := touched_catchUpFailed (w := w)
      have hshown : Shown w.catchUpFailed := by
        unfold BridgeWorld.catchUpFailed
        by_cases hcatch : w.phase = .catchUp
        · rw [if_pos hcatch]
          exact shown_of_announced h.shown.delivers.emit_desync position_emit_desync
        · rw [if_neg hcatch]
          exact h.shown
      exact ⟨h.sourced.pollDone htouched, hshown.pollDone, Phased.pollDone htouched hreading hphase⟩
    | unsupported =>
      have hdelivers : Delivers { w with
          poll := .asking
          state := { w.state with legacySnapshots := true, outputCursor := .reset } } :=
        ⟨h.shown.delivers.follows, h.shown.delivers.holds⟩
      refine ⟨h.sourced.bridge _ _ _ _ nofun,
        shown_of_legacy hdelivers rfl hreading, ?_⟩
      exact ⟨h.phased.reads, fun _ => hphase, nofun,
        nofun, fun hidle => ⟨(h.phased.unstarted hidle).1, rfl⟩⟩

/-! ### the daemon and the life of the bridge -/

theorem Kept.daemon (h : Kept w) {produced batch : Bytes} {replay : ReplayBuffer}
    {batchEndSeq : Nat} {subscription : Option Subscription}
    (hsourced : Sourced { w with
      produced := produced, replay := replay, batch := batch, batchEndSeq := batchEndSeq,
      subscription := subscription })
    (hproduced : w.produced <+: produced) : Kept { w with
      produced := produced, replay := replay, batch := batch, batchEndSeq := batchEndSeq,
      subscription := subscription } := by
  obtain ⟨more, rfl⟩ := hproduced
  exact ⟨hsourced,
    ⟨⟨h.shown.delivers.follows, h.shown.delivers.holds.mono more⟩, h.shown.cursor, h.shown.fresh⟩,
    ⟨h.phased.reads, h.phased.polled, h.phased.recovers, h.phased.replays, h.phased.unstarted⟩⟩

theorem Kept.subscriber (h : Kept w) {g : Subscription → Subscription}
    (hg : ∀ s, w.subscription = some s → Fed w.produced w.batch w.reading s →
      Fed w.produced w.batch w.reading (g s)) :
    Kept { w with subscription := w.subscription.map g } := by
  refine h.daemon ?_ (prefix_refl _)
  exact h.sourced.subscriber hg

theorem Kept.produce (h : Kept w) (data : Bytes) {queued : Bool} (room : Nat)
    (hok : queued = true ∨ w.batch = []) : Kept (w.produce data queued room) := by
  have hsourced := h.sourced.produce data room hok
  unfold BridgeWorld.produce at hsourced ⊢
  cases queued with
  | true => exact h.daemon hsourced (prefix_append _ _)
  | false => exact h.daemon hsourced (prefix_append _ _)

theorem Kept.flush (h : Kept w) (seq : Bool) (room : Nat) : Kept (w.flush seq room) := by
  have hsourced := h.sourced.flush seq room
  unfold BridgeWorld.flush at hsourced ⊢
  by_cases hempty : w.batch = []
  · rw [if_pos hempty]
    exact h
  · rw [if_neg hempty] at hsourced ⊢
    exact h.daemon hsourced (prefix_refl _)

theorem Kept.subscribe (h : Kept w) : Kept w.subscribe := by
  have hsourced := h.sourced.subscribe
  unfold BridgeWorld.subscribe at hsourced ⊢
  by_cases hnone : w.subscription = none
  · rw [if_pos hnone] at hsourced ⊢
    exact h.daemon hsourced (prefix_refl _)
  · rw [if_neg hnone]
    exact h

theorem Kept.phase (h : Kept w) {phase : Phase} (hpoll : w.poll = .idle)
    (hreading : w.reading = none) (hphase : phase ≠ .idle) : Kept { w with phase := phase } := by
  refine ⟨h.sourced.bridge phase w.state w.events w.viewStart h.sourced.answered,
    ⟨⟨h.shown.delivers.follows, h.shown.delivers.holds⟩, h.shown.cursor, h.shown.fresh⟩, ?_⟩
  exact phased_of_idle hpoll (fun hr => absurd hreading hr) hphase

theorem Kept.attach (h : Kept w) : Kept w.attach := by
  unfold BridgeWorld.attach
  by_cases hphase : w.phase = .idle
  · rw [if_pos hphase]
    obtain ⟨hevents, hcursor⟩ := h.phased.unstarted hphase
    have hreading := h.phased.not_reading (by simp [hphase])
    have hpoll := h.phased.idle (by simp [hphase]) (by simp [hphase])
    refine ⟨h.sourced.bridge _ _ _ _ h.sourced.answered, ⟨⟨?_, h.shown.delivers.holds⟩, ?_, ?_⟩,
      phased_of_idle hpoll (fun hr => absurd hreading hr) (nofun)⟩
    · show Follows _ (itemsOf w.events)
      rw [hevents]
      trivial
    · intro p hp
      cases hcursor.symm.trans hp
    · intro _ r hr
      cases hreading.symm.trans hr
  · rw [if_neg hphase]
    exact h

theorem Kept.startSession (h : Kept w) : Kept w.startSession := by
  unfold BridgeWorld.startSession
  by_cases hphase : w.phase = .idle ∨ w.phase = .attached
  · rw [if_pos hphase]
    have hne : ∀ p : Phase, p ≠ .idle → p ≠ .attached → w.phase ≠ p := by
      intro p hi ha e
      rcases hphase with h' | h'
      · exact hi (e.symm.trans h')
      · exact ha (e.symm.trans h')
    exact h.phase (h.phased.idle (hne _ (by simp) (by simp)) (hne _ (by simp) (by simp)))
      (h.phased.not_reading (hne _ (by simp) (by simp))) (by simp)
  · rw [if_neg hphase]
    exact h

theorem Kept.connect (h : Kept w) : Kept w.connect := by
  unfold BridgeWorld.connect
  by_cases hconnecting : w.phase = .connecting
  · rw [if_pos hconnecting]
    exact h.phase (h.phased.idle (by simp [hconnecting]) (by simp [hconnecting]))
      (h.phased.not_reading (by simp [hconnecting])) (by simp)
  rw [if_neg hconnecting]
  by_cases hpolling : w.phase = .polling ∧ w.poll = .idle
  · rw [if_pos hpolling]
    have hreading : w.reading = none := h.phased.not_reading (by simp [hpolling.1])
    refine ⟨h.sourced.bridge _ _ _ _ nofun,
      ⟨⟨h.shown.delivers.follows, h.shown.delivers.holds⟩, h.shown.cursor, h.shown.fresh⟩, ?_⟩
    exact ⟨fun hr => absurd hreading hr, fun _ => .inr rfl, nofun,
      nofun, nofun⟩
  · rw [if_neg hpolling]
    exact h

theorem Kept.unsubscribed (h : Kept w) (hreading : w.reading = none) :
    Kept { w with subscription := none } :=
  h.daemon (h.sourced.lost w.phase hreading) (prefix_refl _)

theorem Kept.unavailable (h : Kept w) : Kept w.unavailable := by
  unfold BridgeWorld.unavailable
  by_cases hconnecting : w.phase = .connecting
  · rw [if_pos hconnecting]
    have hreading : w.reading = none := h.phased.not_reading (by simp [hconnecting])
    exact (h.unsubscribed hreading).phase
      (h.phased.idle (by simp [hconnecting]) (by simp [hconnecting])) hreading (by simp)
  · rw [if_neg hconnecting]
    exact h

theorem Kept.lose (h : Kept w) : Kept w.lose := by
  unfold BridgeWorld.lose
  by_cases hstreaming : w.phase = .streaming
  · rw [if_pos hstreaming]
    have hpoll : w.poll = .idle := h.phased.idle (by simp [hstreaming]) (by simp [hstreaming])
    exact ⟨h.sourced.lost .polling rfl, h.shown.unread .polling none,
      phased_of_idle hpoll (fun hr => absurd rfl hr) nofun⟩
  rw [if_neg hstreaming]
  by_cases hphase : w.phase = .connecting ∨ w.phase = .polling
  · rw [if_pos hphase]
    exact h.unsubscribed (h.phased.not_reading hstreaming)
  · rw [if_neg hphase]
    exact h

theorem Kept.stop (h : Kept w) : Kept w.stop := by
  unfold BridgeWorld.stop
  by_cases hphase : (w.phase = .streaming ∨ w.phase = .polling) ∧ w.poll = .idle
  · rw [if_pos hphase]
    have hself : Touched w w := ⟨_, _, rfl⟩
    exact h.finish (hself.exitOnce (-1)) (h.shown.exitOnce (-1)) hphase.2
  · rw [if_neg hphase]
    exact h

theorem Kept.ask (h : Kept w) (outcome : Outcome) : Kept (w.ask outcome) := by
  have hsourced := h.sourced.ask outcome
  unfold BridgeWorld.ask at hsourced ⊢
  by_cases hask : w.poll = .asking ∨ (w.phase = .polling ∧ w.poll = .idle)
  · rw [if_pos hask] at hsourced ⊢
    have hphase : w.phase = .polling ∨ w.phase = .catchUp := by
      rcases hask with hasking | ⟨hpolling, _⟩
      · exact h.phased.polled (by simp [hasking])
      · exact .inl hpolling
    refine ⟨hsourced,
      ⟨⟨h.shown.delivers.follows, h.shown.delivers.holds⟩, h.shown.cursor, h.shown.fresh⟩, ?_⟩
    refine ⟨h.phased.reads, fun _ => hphase, ?_, ?_, h.phased.unstarted⟩
    · intro s hs
      show w.state.legacySnapshots = false
      cases hlegacy : w.state.legacySnapshots with
      | false => rfl
      | true => cases outcome <;> simp [hlegacy] at hs
    · intro s stop tail hs
      show w.state.legacySnapshots = true
      cases hlegacy : w.state.legacySnapshots with
      | true => rfl
      | false => cases outcome <;> simp [hlegacy] at hs
  · rw [if_neg hask]
    exact h

theorem kept_init (maxBytes epoch : Nat) : Kept (.init maxBytes epoch) := by
  refine ⟨⟨ReplayBuffer.accounting_new maxBytes epoch, suffix_refl _, fun h => absurd rfl h,
    nofun, fun _ => rfl, nofun⟩,
    ⟨⟨trivial, Holds.nil _⟩, nofun, nofun⟩, ?_⟩
  exact ⟨fun hr => absurd rfl hr, fun hp => absurd rfl hp, nofun,
    nofun, fun _ => ⟨rfl, rfl⟩⟩

/-- **Every step that meets the condition keeps the invariant.** -/
theorem kept_step (h : Kept w) (a : BridgeAction) (hok : StepAligned w a) : Kept (step w a) := by
  cases a with
  | produce data queued room => exact h.produce data room hok
  | flush seq room => exact h.flush seq room
  | notify n room => exact h.subscriber fun s _ hs => hs.deliverNotice n room
  | signalDesync room => exact h.subscriber fun s _ hs => hs.toQueued.signal w.batch room
  | setHiddenSession shouldHide room =>
    exact h.subscriber fun s _ hs => hs.setHidden shouldHide room
  | clearConnectionHidden => exact h.subscriber fun s hsub hs => hs.clearHidden (hok s hsub)
  | shrink maxBytes =>
    refine h.daemon ?_ (prefix_refl _)
    exact ⟨ReplayBuffer.accounting_shrink h.sourced.accounting maxBytes, h.sourced.batched,
      h.sourced.batchEnd, h.sourced.fed, h.sourced.unread, h.sourced.answered⟩
  | storeCheckpoint cp =>
    refine h.daemon ?_ (prefix_refl _)
    exact ⟨ReplayBuffer.accounting_storeCheckpoint h.sourced.accounting cp, h.sourced.batched,
      h.sourced.batchEnd, h.sourced.fed, h.sourced.unread, h.sourced.answered⟩
  | subscribe => exact h.subscribe
  | attach => exact h.attach
  | startSession => exact h.startSession
  | connect => exact h.connect
  | unavailable => exact h.unavailable
  | lose => exact h.lose
  | read => exact h.read hok
  | ask outcome => exact h.ask outcome
  | receive => exact h.receive hok
  | stop => exact h.stop

end

/-- **Exactly once, or announced**: in every run whose steps meet the condition, the output events
follow each other from the view's start on, with a desync at every gap and every repetition. -/
theorem delivers_of_stepAligned (maxBytes epoch : Nat) (as : List BridgeAction)
    (h : StepsOk step StepAligned (.init maxBytes epoch) as) :
    Along step Delivers (.init maxBytes epoch) as := by
  have hkept : Along step Kept (.init maxBytes epoch) as :=
    along_of_inv (I := Kept) (fun _ a hk hok => kept_step hk a hok) (kept_init maxBytes epoch) h
  exact hkept.mono fun _ hk => hk.shown.delivers

/-- output is streamed, the connection is lost and polling bridges it; the queued frame that the
catch-up had already is dropped -/
def reconnectRun : List BridgeAction :=
  [.startSession, .connect, .subscribe, .produce [97, 98] true 8, .flush true 8, .read, .lose,
    .produce [99] true 8, .flush true 8, .ask .answered, .receive, .connect, .subscribe,
    .produce [100] true 8, .flush true 8, .ask .answered, .receive, .read]

theorem reconnectRun_delivers : Along step Delivers (.init 1024 1) reconnectRun :=
  delivers_of_stepAligned 1024 1 reconnectRun (by decide)

/-- the session writes before the server has subscribed: the first frame is taken for the start -/
def lateSubscriptionRun : List BridgeAction :=
  [.startSession, .connect, .produce [97] true 8, .flush true 8, .subscribe,
    .produce [98] true 8, .flush true 8, .read]

/-- output that was streamed comes again with the first legacy snapshot -/
def legacyFallbackRun : List BridgeAction :=
  [.startSession, .connect, .subscribe, .produce [97] true 8, .flush true 8, .read, .lose,
    .ask .unsupported, .receive, .ask .answered, .receive]

theorem bridge_misses : ¬ Along step Delivers (.init 1024 1) lateSubscriptionRun ∧
    ¬ Along step Delivers (.init 1024 1) legacyFallbackRun := by
  refine ⟨?_, ?_⟩
  · intro h
    exact absurd h.last.follows (by decide)
  · intro h
    exact absurd h.last.follows (by decide)

end CcPanes.EventBridge

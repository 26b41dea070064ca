import CcPanes.Foundation.Run
import CcPanes.Session.StateMachine

/-!
# Hook events over two channels

Every hook event of a session arrives twice, over HTTP and then over OSC, and the machine drops
the second copy: an event whose name it applied from the other channel within the window.  It
remembers the last `dedupMemory` applied events only.
-/

namespace CcPanes

open Run SessionStateMachine RecentMemory List

structure Delivery where
  event : CcPaneEvent
  channel : EventChannel
  taskBindingId : Option String
  payload : HookPayload
  clock : Clock

def Delivery.onHttp (d : Delivery) : Bool := d.channel == .http
def Delivery.onOsc (d : Delivery) : Bool := d.channel == .osc

def deliver (sid : String) (m : SessionStateMachine) (d : Delivery) : SessionStateMachine :=
  (m.onEventWithChannel sid d.event d.taskBindingId d.payload d.channel d.clock).1

def dropped (sid : String) (m : SessionStateMachine) (d : Delivery) : Bool :=
  (m.entryOrNew sid d.clock).isCrossChannelDup (ccPaneEventName d.event) d.channel
    d.clock.instant

def sessionAfter (sid : String) (ds : List Delivery) : SessionStateMachine :=
  run (deliver sid) SessionStateMachine.new ds

def progress (m : SessionStateMachine) (sid : String) : SessionStatus × Nat :=
  match m.entries sid with
  | none => (.initializing, 0)
  | some e => (e.status, e.turnSeq)

/-- what a session remembers for the deduplication -/
def memory (m : SessionStateMachine) (sid : String) : List AppliedEvent :=
  match m.entries sid with
  | none => []
  | some e => e.lastAppliedEvents

def applyOnce (p : SessionStatus × Nat) (event : CcPaneEvent) : SessionStatus × Nat :=
  (nextStatus p.1 event, nextTurnSeq p.2 event)

def applyAllOnce (real : List CcPaneEvent) : SessionStatus × Nat :=
  real.foldl applyOnce (.initializing, 0)

def httpEvents (ds : List Delivery) : List CcPaneEvent :=
  (ds.filter Delivery.onHttp).map Delivery.event

/-- the deliveries `ds` bring every event of `real` once over each channel, in order, the HTTP copy
first, and all within the window -/
structure TwoChannels (real : List CcPaneEvent) (ds : List Delivery) : Prop where
  http : httpEvents ds = real
  osc : (ds.filter Delivery.onOsc).map Delivery.event = real
  ahead : ∀ pre ∈ ds.inits,
    (pre.filter Delivery.onOsc).length ≤ (pre.filter Delivery.onHttp).length
  window : ∀ d ∈ ds, ∀ d' ∈ ds,
    asSecs (elapsed d'.clock.instant d.clock.instant) < crossChannelDedupWindowSecs

def ExactlyOnce (sid : String) (ds : List Delivery) : Prop :=
  Every (fun pre d => dropped sid (sessionAfter sid pre) d = true ↔ d.channel = .osc) ds

def Covered (ds : List Delivery) : Prop :=
  Every (fun pre d => d.channel = .osc → d.event ∈ (httpEvents pre).rtake dedupMemory) ds

instance (ds : List Delivery) : Decidable (Covered ds) :=
  inferInstanceAs (Decidable (Every _ ds))

/-! ## one delivery -/

section
variable (sid : String) (m : SessionStateMachine) (d : Delivery)

theorem entryOrNew_progress :
    ((m.entryOrNew sid d.clock).status, (m.entryOrNew sid d.clock).turnSeq) = progress m sid := by
  unfold entryOrNew progress
  cases m.entries sid with
  | none => rfl
  | some e => rfl

theorem entryOrNew_memory : (m.entryOrNew sid d.clock).lastAppliedEvents = memory m sid := by
  unfold entryOrNew memory
  cases m.entries sid with
  | none => rfl
  | some e => rfl

theorem progress_of_entry {m : SessionStateMachine} {e : SessionStateEntry}
    (h : m.entries sid = some e) : progress m sid = (e.status, e.turnSeq) := by
  unfold progress
  rw [h]

theorem memory_of_entry {m : SessionStateMachine} {e : SessionStateEntry}
    (h : m.entries sid = some e) : memory m sid = e.lastAppliedEvents := by
  unfold memory
  rw [h]

variable {sid m d}

theorem deliver_dropped (h : dropped sid m d = true) :
    progress (deliver sid m d) sid = progress m sid ∧
    memory (deliver sid m d) sid = memory m sid := by
  have hentry : (deliver sid m d).entries sid = some (m.entryOrNew sid d.clock) := by
    unfold deliver
    rw [onEvent_dropped d.taskBindingId d.payload h, setEntry_self]
  constructor
  · rw [progress_of_entry sid hentry, entryOrNew_progress]
  · rw [memory_of_entry sid hentry, entryOrNew_memory]

theorem deliver_applied (h : dropped sid m d = false) :
    progress (deliver sid m d) sid = applyOnce (progress m sid) d.event ∧
    memory (deliver sid m d) sid = remember dedupMemory (memory m sid)
      ⟨ccPaneEventName d.event, d.clock.instant, d.channel⟩ := by
  have hentry : (deliver sid m d).entries sid =
      some (m.appliedEntry sid d.event d.taskBindingId d.payload d.channel d.clock) := by
    unfold deliver
    rw [onEvent_applied d.taskBindingId d.payload h, setEntry_self]
  constructor
  · rw [progress_of_entry sid hentry, ← entryOrNew_progress sid m d]
    unfold appliedEntry
    rw [transfer_status, transfer_turnSeq]
    rfl
  · rw [memory_of_entry sid hentry, ← entryOrNew_memory sid m d]
    exact (transfer_bookkeeping _ _ _).1

theorem dropped_eq : dropped sid m d = (memory m sid).any fun a =>
    a.name == ccPaneEventName d.event && a.channel != d.channel &&
      decide (asSecs (elapsed d.clock.instant a.at_) < crossChannelDedupWindowSecs) := by
  unfold dropped SessionStateEntry.isCrossChannelDup
  rw [entryOrNew_memory]

end

/-! ## deliveries that were applied exactly once -/

def Delivery.applied (d : Delivery) : AppliedEvent :=
  ⟨ccPaneEventName d.event, d.clock.instant, d.channel⟩

theorem filter_onHttp_snoc (ds : List Delivery) (d : Delivery) :
    (ds ++ [d]).filter Delivery.onHttp =
      ds.filter Delivery.onHttp ++ (if d.channel = .http then [d] else []) := by
  rw [filter_append]
  cases hc : d.channel with
  | http => simp [Delivery.onHttp, hc]
  | osc => simp [Delivery.onHttp, hc]

theorem channel_of_mem_filter {ds : List Delivery} {d : Delivery}
    (h : d ∈ ds.filter Delivery.onHttp) : d.channel = .http := by
  have hon : d.onHttp = true := (mem_filter.mp h).2
  exact eq_of_beq hon

theorem state_of_exactlyOnce (sid : String) (ds : List Delivery) :
    ExactlyOnce sid ds →
      progress (sessionAfter sid ds) sid = applyAllOnce (httpEvents ds) ∧
      memory (sessionAfter sid ds) sid =
        ((ds.filter Delivery.onHttp).map Delivery.applied).rtake dedupMemory := by
  induction ds using history_induct with
  | hnil =>
    intro _
    exact ⟨rfl, rfl⟩
  | hstep ds d ih =>
    intro h
    obtain ⟨hds, hd⟩ := (every_snoc _ ds d).mp h
    obtain ⟨hprog, hmem⟩ := ih hds
    have hrun : sessionAfter sid (ds ++ [d]) = deliver sid (sessionAfter sid ds) d :=
      run_snoc _ _ ds d
    unfold httpEvents
    rw [hrun, filter_onHttp_snoc]
    cases hc : d.channel with
    | osc =>
      obtain ⟨h1, h2⟩ := deliver_dropped (hd.mpr hc)
      rw [h1, h2]
      simp only [reduceCtorEq, if_false, append_nil]
      exact ⟨hprog, hmem⟩
    | http =>
      have hkeep : dropped sid (sessionAfter sid ds) d = false := by
        rw [← Bool.not_eq_true, hd, hc]
        nofun
      obtain ⟨h1, h2⟩ := deliver_applied hkeep
      rw [h1, h2, hprog, hmem]
      simp only [if_true, map_append, map_cons, map_nil]
      constructor
      · unfold applyAllOnce httpEvents
        rw [foldl_append]
        rfl
      · exact remember_rtake 3 _ d.applied

/-- within the window, after deliveries applied exactly once, an OSC copy is dropped iff its event
is among the last HTTP deliveries, and an HTTP copy is not dropped -/
theorem dropped_iff {sid : String} {ds : List Delivery} {d : Delivery} (h : ExactlyOnce sid ds)
    (hwin : ∀ d' ∈ ds, asSecs (elapsed d.clock.instant d'.clock.instant) <
      crossChannelDedupWindowSecs) :
    dropped sid (sessionAfter sid ds) d = true ↔
      d.channel = .osc ∧ d.event ∈ (httpEvents ds).rtake dedupMemory := by
  rw [dropped_eq, (state_of_exactlyOnce sid ds h).2, any_eq_true]
  unfold httpEvents
  unfold rtake
  rw [length_map, length_map, ← map_drop, ← map_drop]
  simp only [mem_map]
  constructor
  · rintro ⟨_, ⟨d', hd', rfl⟩, hdup⟩
    have hhttp := channel_of_mem_filter (mem_of_mem_drop hd')
    simp only [Delivery.applied, Bool.and_eq_true, beq_iff_eq, bne_iff_ne, hhttp] at hdup
    refine ⟨?_, d', hd', ccPaneEventName_inj hdup.1.1⟩
    cases hc : d.channel with
    | http => exact absurd hc.symm hdup.1.2
    | osc => rfl
  · rintro ⟨hosc, d', hd', hev⟩
    have hmem := mem_of_mem_drop hd'
    have hhttp := channel_of_mem_filter hmem
    refine ⟨d'.applied, ⟨d', hd', rfl⟩, ?_⟩
    have hnear := hwin d' (mem_filter.mp hmem).1
    simp [Delivery.applied, hosc, hhttp, hev, hnear]

theorem exactlyOnce_iff {sid : String} {ds : List Delivery}
    (hwin : ∀ d ∈ ds, ∀ d' ∈ ds,
      asSecs (elapsed d'.clock.instant d.clock.instant) < crossChannelDedupWindowSecs) :
    ExactlyOnce sid ds ↔ Covered ds := by
  induction ds using history_induct with
  | hnil => exact ⟨fun _ => trivial, fun _ => trivial⟩
  | hstep ds d ih =>
    have hlast : ∀ d' ∈ ds,
        asSecs (elapsed d.clock.instant d'.clock.instant) < crossChannelDedupWindowSecs := by
      intro d' hd'
      exact hwin d' (mem_append_left _ hd') d (mem_append_right _ mem_cons_self)
    have ih' := ih fun d hd d' hd' =>
      hwin d (mem_append_left _ hd) d' (mem_append_left _ hd')
    unfold ExactlyOnce Covered at ih' ⊢
    rw [every_snoc, every_snoc, ← ih']
    refine and_congr_right fun hds => ?_
    rw [dropped_iff hds hlast]
    exact ⟨fun h hosc => (h.mpr hosc).2, fun h => ⟨And.left, fun hosc => ⟨hosc, h hosc⟩⟩⟩

/-- **When both channels together apply every event exactly once.**  For any order of the `2n`
deliveries: every event is applied exactly once, and so status and turn counter are those of the
single application, iff the deliveries are covered. -/
theorem exactlyOnce_iff_covered (sid : String) {real : List CcPaneEvent} {ds : List Delivery}
    (h : TwoChannels real ds) :
    (ExactlyOnce sid ds ∧ progress (sessionAfter sid ds) sid = applyAllOnce real) ↔
      Covered ds := by
  rw [← exactlyOnce_iff h.window]
  constructor
  · exact And.left
  · intro honce
    refine ⟨honce, ?_⟩
    rw [(state_of_exactlyOnce sid ds honce).1, h.http]

/-! ## runs on fixed events -/

def Delivery.of (channel : EventChannel) (event : CcPaneEvent) : Delivery :=
  ⟨event, channel, none, ⟨none, none, none, none⟩, ⟨0, 0⟩⟩

def promptTurn : List CcPaneEvent := [.promptBefore, .turnEnd]

def promptTurnDeliveries : List Delivery :=
  promptTurn.map (Delivery.of .http) ++ promptTurn.map (Delivery.of .osc)

theorem promptTurn_exactlyOnce :
    ExactlyOnce "pty-1" promptTurnDeliveries ∧
      progress (sessionAfter "pty-1" promptTurnDeliveries) "pty-1" = applyAllOnce promptTurn := by
  have htwo : TwoChannels promptTurn promptTurnDeliveries :=
    ⟨by decide, by decide, by decide, by decide⟩
  exact (exactlyOnce_iff_covered "pty-1" htwo).mpr (by decide)

def lateMarks : List CcPaneEvent := [.turnEnd, .promptBefore, .toolBefore, .toolAfter, .toolBefore]

def lateMarksDeliveries : List Delivery :=
  lateMarks.map (Delivery.of .http) ++ lateMarks.map (Delivery.of .osc)

theorem lateMarks_turnEnd_twice :
    ¬ ∀ (sid : String) (real : List CcPaneEvent) (ds : List Delivery), TwoChannels real ds →
      progress (sessionAfter sid ds) sid = applyAllOnce real := by
  intro hall
  have htwo : TwoChannels lateMarks lateMarksDeliveries :=
    ⟨by decide, by decide, by decide, by decide⟩
  have h := hall "pty-1" lateMarks lateMarksDeliveries htwo
  cases h

end CcPanes

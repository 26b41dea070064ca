import CcPanes.Foundation.Run
import CcPanes.TaskQueue.QueueRefinement

/-!
# The dispatch claims of a reachable database
-/

namespace CcPanes
open Option List
namespace TaskQueueDb

open PromptQueue

variable {db : TaskQueueDb} {q : PromptQueue} {sid : String}

def Represented (db : TaskQueueDb) : Prop := ∀ sid, ∃ q, Represents db sid q

theorem init_represented (now : Int) : Represented (init now) :=
  fun _ => ⟨PromptQueue.empty, rfl, rfl⟩

section
variable {db' : TaskQueueDb}

theorem TouchesOnly.represented (ht : TouchesOnly sid db db') (h : Represented db)
    {q : PromptQueue} (hq : Represents db' sid q) : Represented db' := by
  intro sid'
  by_cases hs : sid' = sid
  · subst hs
    exact ⟨q, hq⟩
  · obtain ⟨q', hq'⟩ := h sid'
    exact ⟨q', hq'.frame (ht.rows sid' hs) (ht.queues sid' hs)⟩

end

theorem commit_represents {α : Type} {r : AppResult (α × TaskQueueDb)} (h : Represents db sid q)
    (hok : ∀ a db', r = .ok (a, db') → ∃ q', Represents db' sid q') :
    ∃ q', Represents (db.commit r) sid q' := by
  cases r with
  | error => exact ⟨q, h⟩
  | ok p => exact hok p.1 p.2 rfl

theorem commit_finishClaim (h : Represents db sid q) {phase : HeadPhase}
    (hphase : phase.token = none) (itemId token : String) (code message : Option String)
    (now : Int) :
    ∃ q', Represents
      (db.commit (db.finishClaim sid itemId token phase.state code message now)) sid q' := by
  refine commit_represents h fun b db' hok => ?_
  rcases represents_finishClaim h hphase hok with ⟨_, rfl⟩ | ⟨_, _, _, hq'⟩
  · exact ⟨q, h⟩
  · exact ⟨_, hq'⟩

theorem apply_represents {op : QueueOp} (hop : operandOf op = some sid) (h : Represents db sid q) :
    ∃ q', Represents (op.apply db) sid q' := by
  cases op with
  | snapshot sid' =>
    cases hop
    exact commit_represents h fun s db' hok => ⟨_, represents_snapshot h hok⟩
  | addItem sid' =>
    cases hop
    exact commit_represents h fun s db' hok => ⟨_, (represents_addItem h hok).2.2⟩
  | deleteItem sid' =>
    cases hop
    exact commit_represents h fun s db' hok => ⟨_, (represents_deleteItem h hok).2⟩
  | clearQueue sid' =>
    cases hop
    exact commit_represents h fun s db' hok => ⟨_, represents_clearQueue h hok⟩
  | updateControl sid' =>
    cases hop
    exact commit_represents h fun s db' hok => ⟨_, represents_updateControl h hok⟩
  | retryItem sid' =>
    cases hop
    exact commit_represents h fun s db' hok => ⟨_, (represents_retryItem h hok).2.2⟩
  | setRuntimeStatus sid' =>
    cases hop
    exact commit_represents h fun s db' hok => ⟨_, represents_setRuntimeStatus h hok⟩
  | claimNext sid' =>
    cases hop
    refine commit_represents h fun claim db' hok => ?_
    rcases represents_claimNext h hok with ⟨_, hrows, hqueues⟩ | ⟨_, _, _, _, _, _, _, _, hq'⟩
    · exact ⟨q, h.frame hrows hqueues⟩
    · exact ⟨_, hq'⟩
  | completeClaim sid' =>
    cases hop
    refine commit_represents h fun b db' hok => ?_
    rcases represents_completeClaim h hok with ⟨_, rfl⟩ | ⟨_, _, _, hq'⟩
    · exact ⟨q, h⟩
    · exact ⟨_, hq'⟩
  | returnClaimToQueue sid' itemId token now =>
    cases hop
    have hphase : HeadPhase.queued.token = none := rfl
    exact commit_finishClaim h hphase itemId token none none now
  | failClaim sid' itemId token code message now =>
    cases hop
    have hphase : HeadPhase.failed.token = none := rfl
    exact commit_finishClaim h hphase itemId token (some code) (some message) now
  | markDeliveryUnknown sid' itemId token message now =>
    cases hop
    have hphase : HeadPhase.deliveryUnknown.token = none := rfl
    exact commit_finishClaim h hphase itemId token _ _ now
  | setGlobalEnabled => cases hop
  | recoverInflight => cases hop

/-- **Every operation keeps the queues**, of its own session and of the others. -/
theorem apply_represented (db : TaskQueueDb) (op : QueueOp) (h : Represented db) :
    Represented (op.apply db) := by
  cases hop : operandOf op with
  | some sid =>
    obtain ⟨q, hq⟩ := h sid
    obtain ⟨q', hq'⟩ := apply_represents hop hq
    exact (apply_frame db hop).represented h hq'
  | none =>
    intro sid
    obtain ⟨q, hq⟩ := h sid
    cases op with
    | setGlobalEnabled enabled now =>
      refine commit_represents (r := db.setGlobalEnabled enabled now) hq fun r db' hok => ?_
      obtain ⟨hitems, hqueues⟩ := setGlobalEnabled_ok hok
      exact ⟨q, hq.frame (congrArg _ hitems) (congrFun hqueues sid)⟩
    | recoverInflight now =>
      refine commit_represents (r := db.recoverInflight now) hq fun n db' hok => ?_
      exact ⟨_, represents_recoverInflight hq hok⟩
    | _ => cases hop

/-- **Every reachable session represents a queue of prompts.** -/
theorem queue_represented (start : Int) (ops : List QueueOp) :
    Represented (Run.run QueueOp.apply (init start) ops) :=
  Run.run_inv apply_represented (init_represented start) ops

/-! ## what the rows of a represented queue say -/

section

theorem Represents.token_iff (h : Represents db sid q) {r : ItemRow} (hr : r ∈ db.rows sid) :
    r.dispatchToken.isSome ↔ r.state = .dispatching := by
  have htok := h.dispatchToken hr
  rw [h.dispatching_iff hr]
  by_cases h0 : r.position = 0
  · rw [if_pos h0] at htok
    rw [htok, isSome_iff_exists]
    constructor
    · rintro ⟨t, ht⟩
      exact ⟨t, (h.isHead_iff hr).mpr h0, HeadPhase.token_eq_some ht⟩
    · rintro ⟨t, _, ht⟩
      exact ⟨t, by rw [ht]; rfl⟩
  · rw [if_neg h0] at htok
    rw [htok]
    constructor
    · intro hsome
      cases hsome
    · rintro ⟨t, hid, _⟩
      exact absurd ((h.isHead_iff hr).mp hid) h0

theorem Represents.active_iff (h : Represents db sid q) (t : String) :
    db.activeToken sid = some t ↔
      ∃ r, (db.rows sid).filter isDispatching = [r] ∧ r.dispatchToken = some t := by
  rw [h.token]
  constructor
  · intro ht
    have hhead := HeadPhase.token_eq_some ht
    obtain ⟨id, hid⟩ := exists_isHead hhead
    obtain ⟨r, hr, rfl⟩ := h.exists_row hid.mem
    refine ⟨r, ?_, (h.of_isHead hr hid).2.trans ht⟩
    have hsame : ∀ r' ∈ db.rows sid, isDispatching r' = (r' == r) := by
      intro r' hr'
      refine Bool.eq_iff_iff.mpr ?_
      rw [isDispatching, decide_eq_true_iff, beq_iff_eq, h.dispatching_iff hr']
      constructor
      · rintro ⟨_, hid', _⟩
        exact h.row_unique hr' hr (hid'.unique hid)
      · rintro rfl
        exact ⟨t, hid, hhead⟩
    rw [filter_congr hsame, filter_beq]
    rw [count_eq_one_of_mem h.nodup hr]
    rfl
  · rintro ⟨r, hfilter, ht⟩
    have hmem : r ∈ (db.rows sid).filter isDispatching := by
      rw [hfilter]
      exact mem_singleton_self r
    obtain ⟨hr, hst⟩ := mem_filter.mp hmem
    obtain ⟨_, hid, _⟩ := (h.dispatching_iff hr).mp (of_decide_eq_true hst)
    exact (h.of_isHead hr hid).2.symm.trans ht

theorem Represents.first_of_ne_queued (h : Represents db sid q) {r : ItemRow}
    (hr : r ∈ db.rows sid) (hst : r.state ≠ .queued) : r.position = 0 :=
  (h.isHead_iff hr).mp (h.isHead_of_ne_queued hr hst).1

theorem Represents.positions_eq_range (h : Represents db sid q) :
    (db.rows sid).map ItemRow.position = range (db.rows sid).length := by
  rw [h.positions, h.length, range_eq_range']
  exact zipIdx_map_snd 0 q.items

theorem Represents.retry_unclaimed (h : Represents db sid q) {itemId : String} {now : Int}
    {s : TaskQueueSnapshot} {db' : TaskQueueDb}
    (hok : db.retryItem sid itemId now = .ok (s, db')) :
    db.activeToken sid = none ∧ ∀ r ∈ db.rows sid, r.state ≠ .dispatching := by
  obtain ⟨_, hphase, _⟩ := represents_retryItem h hok
  have hidle : ∀ t, q.head ≠ .dispatching t := by
    intro t ht
    rcases hphase with hf | hf <;> rw [hf] at ht <;> cases ht
  refine ⟨?_, fun r hr hst => ?_⟩
  · rw [h.token]
    refine HeadPhase.token_eq_none.mpr fun hs => ?_
    obtain ⟨t, ht⟩ := HeadPhase.state_dispatching hs
    exact hidle t ht
  · obtain ⟨t, _, ht⟩ := (h.dispatching_iff hr).mp hst
    exact hidle t ht

end

/-- **Claims, states and positions agree in every database that is reached.** -/
theorem queue_consistent (start : Int) (ops : List QueueOp) (sid : String) :
    let db := Run.run QueueOp.apply (init start) ops
    (∀ t, db.activeToken sid = some t ↔
      ∃ r, (db.rows sid).filter isDispatching = [r] ∧ r.dispatchToken = some t) ∧
    (∀ r ∈ db.rows sid, r.dispatchToken.isSome ↔ r.state = .dispatching) ∧
    (∀ r ∈ db.rows sid, r.state ≠ .queued → ∀ r' ∈ db.rows sid, r.position ≤ r'.position) ∧
    ((db.rows sid).map ItemRow.position).Perm (range (db.rows sid).length) ∧
    (db.rows sid).length ≤ taskQueueMaxItems ∧
    (∀ itemId now s db', db.retryItem sid itemId now = .ok (s, db') →
      db.activeToken sid = none ∧ ∀ r ∈ db.rows sid, r.state ≠ .dispatching) := by
  intro db
  obtain ⟨q, h⟩ := queue_represented start ops sid
  refine ⟨h.active_iff, fun r hr => h.token_iff hr, fun r hr hst r' _ => ?_, ?_, ?_, ?_⟩
  · rw [h.first_of_ne_queued hr hst]
    exact Nat.zero_le r'.position
  · rw [h.positions_eq_range]
  · rw [h.length]
    exact q.short
  · intro itemId now s db' hok
    exact h.retry_unclaimed hok

/-! ## recovery -/

/-- the operations with which a dispatcher ends the claim that it holds -/
def endsClaim : QueueOp → Bool
  | .completeClaim _ _ _ _ | .returnClaimToQueue _ _ _ _ | .failClaim _ _ _ _ _ _
  | .markDeliveryUnknown _ _ _ _ _ => true
  | _ => false

theorem recover_not_dispatching (q : PromptQueue) (t : String) :
    q.recover.head ≠ .dispatching t ∧ q.recover.items = q.items := by
  by_cases hd : ∃ t, q.head = .dispatching t
  · obtain ⟨t', ht⟩ := hd
    obtain ⟨id, hid⟩ := exists_isHead ht
    rw [recover_of_dispatching ht, (setHead_items hid _).2, (setHead_items hid _).1]
    exact ⟨nofun, rfl⟩
  · have hd' : ∀ t, q.head ≠ .dispatching t := fun t ht => hd ⟨t, ht⟩
    rw [recover_of_not_dispatching hd']
    exact ⟨hd' t, rfl⟩

theorem endsClaim_idle (h : Represents db sid q) (hd : ∀ t, q.head ≠ .dispatching t) {op : QueueOp}
    (hop : operandOf op = some sid) (hends : endsClaim op = true) : op.apply db = db := by
  have hfinish : ∀ phase : HeadPhase, phase.token = none → ∀ itemId token code message now,
      db.commit (db.finishClaim sid itemId token phase.state code message now) = db := by
    intro phase hphase itemId token code message now
    cases hok : db.finishClaim sid itemId token phase.state code message now with
    | error => rfl
    | ok p =>
      rcases represents_finishClaim h hphase hok with ⟨_, hsame⟩ | ⟨_, _, ht, _⟩
      · exact hsame
      · exact absurd ht (hd token)
  cases op with
  | completeClaim _ itemId token now =>
    cases hop
    show db.commit (db.completeClaim sid itemId token now) = db
    cases hok : db.completeClaim sid itemId token now with
    | error => rfl
    | ok p =>
      rcases represents_completeClaim h hok with ⟨_, hsame⟩ | ⟨_, _, ht, _⟩
      · exact hsame
      · exact absurd ht (hd token)
  | returnClaimToQueue _ itemId token now =>
    cases hop
    exact hfinish .queued rfl itemId token none none now
  | failClaim _ itemId token code message now =>
    cases hop
    exact hfinish .failed rfl itemId token (some code) (some message) now
  | markDeliveryUnknown _ itemId token message now =>
    cases hop
    exact hfinish .deliveryUnknown rfl itemId token _ (some message) now
  | _ => cases hends

end TaskQueueDb
end CcPanes

import CcPanes.TaskQueue.Effects
import CcPanes.TaskQueue.PromptQueue

/-!
# The tables represent queues of prompts

A session of the database represents a `PromptQueue` when its items are the columns of the queue
and the claim of its queue row is the token of the head.  Every operation of the repository that
succeeds does to the represented queue what the abstract operation does.
-/

namespace CcPanes

open DensePositions PromptQueue List

def ItemRow.key (r : ItemRow) : ItemKey := (r.id, r.position, r.state, r.dispatchToken)

namespace TaskQueueDb

def activeToken (db : TaskQueueDb) (sid : String) : Option String :=
  (db.queues sid).bind QueueRow.activeDispatchToken

structure Represents (db : TaskQueueDb) (sid : String) (q : PromptQueue) : Prop where
  keys : (db.rows sid).map ItemRow.key = q.keys
  token : db.activeToken sid = q.head.token

section
variable {db db' : TaskQueueDb} {sid : String} {q : PromptQueue} {now : Int} {r : ItemRow}

/-! ## the items of a represented queue -/

theorem Represents.row (h : Represents db sid q) (hr : r ∈ db.rows sid) :
    (r.id, r.position) ∈ q.items.zipIdx ∧ r.key = keyAt q.head (r.id, r.position) := by
  have hkey : r.key ∈ q.keys := h.keys ▸ mem_map_of_mem hr
  obtain ⟨e, he, heq⟩ := mem_map.mp hkey
  have hid : e.1 = r.id := congrArg Prod.fst heq
  have hpos : e.2 = r.position := congrArg (fun k => k.2.1) heq
  rw [← hid, ← hpos]
  exact ⟨he, heq.symm⟩

theorem Represents.state (h : Represents db sid q) (hr : r ∈ db.rows sid) :
    r.state = if r.position = 0 then q.head.state else .queued :=
  congrArg (fun k => k.2.2.1) (h.row hr).2

theorem Represents.dispatchToken (h : Represents db sid q) (hr : r ∈ db.rows sid) :
    r.dispatchToken = if r.position = 0 then q.head.token else none :=
  congrArg (fun k => k.2.2.2) (h.row hr).2

theorem Represents.isHead_iff (h : Represents db sid q) (hr : r ∈ db.rows sid) :
    q.isHead r.id ↔ r.position = 0 :=
  isHead_iff_zero (h.row hr).1

theorem Represents.isHead_of_ne_queued (h : Represents db sid q) (hr : r ∈ db.rows sid)
    (hst : r.state ≠ .queued) :
    q.isHead r.id ∧ r.state = q.head.state ∧ r.dispatchToken = q.head.token := by
  have hst' := h.state hr
  have htok := h.dispatchToken hr
  by_cases h0 : r.position = 0
  · rw [if_pos h0] at hst' htok
    exact ⟨(h.isHead_iff hr).mpr h0, hst', htok⟩
  · rw [if_neg h0] at hst'
    exact absurd hst' hst

theorem Represents.of_isHead (h : Represents db sid q) (hr : r ∈ db.rows sid)
    (hid : q.isHead r.id) : r.state = q.head.state ∧ r.dispatchToken = q.head.token := by
  have hst := h.state hr
  have htok := h.dispatchToken hr
  rw [if_pos ((h.isHead_iff hr).mp hid)] at hst htok
  exact ⟨hst, htok⟩

theorem Represents.dispatching_iff (h : Represents db sid q) (hr : r ∈ db.rows sid) :
    r.state = .dispatching ↔ ∃ t, q.isHead r.id ∧ q.head = .dispatching t := by
  constructor
  · intro hst
    have hne : r.state ≠ .queued := by
      rw [hst]
      intro h
      cases h
    obtain ⟨hid, hst', _⟩ := h.isHead_of_ne_queued hr hne
    obtain ⟨t, ht⟩ := HeadPhase.state_dispatching (hst'.symm.trans hst)
    exact ⟨t, hid, ht⟩
  · rintro ⟨t, hid, ht⟩
    rw [(h.of_isHead hr hid).1, ht]
    rfl

theorem Represents.of_claimed (h : Represents db sid q) (hr : r ∈ db.rows sid)
    {itemId token : String} (hc : claimed itemId token r = true) :
    r.id = itemId ∧ q.isHead itemId ∧ q.head = .dispatching token := by
  simp only [claimed, Bool.and_eq_true, decide_eq_true_eq] at hc
  obtain ⟨⟨hid, hst⟩, htok⟩ := hc
  obtain ⟨_, hhead, _⟩ := (h.dispatching_iff hr).mp hst
  have htok' := (h.of_isHead hr hhead).2
  exact ⟨hid, hid ▸ hhead, HeadPhase.token_eq_some (htok'.symm.trans htok)⟩

theorem Represents.ids (h : Represents db sid q) :
    (db.rows sid).map ItemRow.id = q.items := by
  have hfst := congrArg (map Prod.fst) h.keys
  rw [map_map] at hfst
  refine hfst.trans ?_
  unfold PromptQueue.keys
  rw [map_map]
  exact zipIdx_map_fst 0 q.items

theorem Represents.positions (h : Represents db sid q) :
    (db.rows sid).map ItemRow.position = q.items.zipIdx.map Prod.snd := by
  have hsnd := congrArg (map fun k => k.2.1) h.keys
  rw [map_map] at hsnd
  refine hsnd.trans ?_
  unfold PromptQueue.keys
  rw [map_map]
  rfl

theorem Represents.length (h : Represents db sid q) :
    (db.rows sid).length = q.items.length := by
  rw [← h.ids, length_map]

theorem Represents.exists_row (h : Represents db sid q) {id : String} (hid : id ∈ q.items) :
    ∃ r ∈ db.rows sid, r.id = id := by
  rw [← h.ids] at hid
  exact mem_map.mp hid

theorem Represents.nodup (h : Represents db sid q) : (db.rows sid).Nodup := by
  refine List.Nodup.of_map ItemRow.id ?_
  rw [h.ids]
  exact q.nodup

theorem Represents.row_unique (h : Represents db sid q) {r r' : ItemRow} (hr : r ∈ db.rows sid)
    (hr' : r' ∈ db.rows sid) (hid : r.id = r'.id) : r = r' := by
  have hnodup : ((db.rows sid).map ItemRow.id).Nodup := by
    rw [h.ids]
    exact q.nodup
  exact inj_on_of_nodup_map hnodup hr hr' hid

theorem Represents.fetchItems_eq (h : Represents db sid q) :
    db.fetchItems sid = (db.rows sid).map ItemRow.toItem := by
  have hsorted : (db.rows sid).Pairwise fun a b => a.position ≤ b.position := by
    have hpos : ((db.rows sid).map ItemRow.position).Pairwise (· ≤ ·) := by
      rw [h.positions, pairwise_map]
      exact pairwise_zipIdx q.items 0
    exact pairwise_map.mp hpos
  unfold fetchItems
  rw [hsorted.insertionSort_eq]

theorem Represents.fetchHead_eq (h : Represents db sid q) {item : TaskQueueItem}
    (hf : db.fetchHead sid = some item) :
    ∃ r ∈ db.rows sid, r.toItem = item ∧ q.isHead r.id := by
  unfold fetchHead at hf
  rw [h.fetchItems_eq, head?_map] at hf
  obtain ⟨r, hr, hitem⟩ := Option.map_eq_some_iff.mp hf
  refine ⟨r, mem_of_mem_head? hr, hitem, ?_⟩
  unfold isHead
  rw [← h.ids, head?_map, hr]
  rfl

theorem Effect.represents {rows' : List ItemRow} {queue' : Option QueueRow}
    (he : Effect sid db db' rows' queue') {q' : PromptQueue}
    (hkeys : rows'.map ItemRow.key = q'.keys)
    (htoken : queue'.bind QueueRow.activeDispatchToken = q'.head.token) :
    Represents db' sid q' :=
  ⟨he.rows ▸ hkeys, (congrArg (Option.bind · _) he.queue).trans htoken⟩

theorem Represents.frame (h : Represents db sid q) (hrows : db'.rows sid = db.rows sid)
    (hqueues : db'.queues sid = db.queues sid) : Represents db' sid q :=
  ⟨hrows ▸ h.keys, (congrArg (Option.bind · _) hqueues).trans h.token⟩

theorem Represents.ensured (h : Represents db sid q) (now : Int) :
    (ensured db sid now).activeDispatchToken = q.head.token := by
  have htoken := h.token
  unfold activeToken at htoken
  unfold TaskQueueDb.ensured
  cases hq : db.queues sid with
  | none =>
    rw [hq] at htoken
    exact htoken
  | some row =>
    rw [hq] at htoken
    exact htoken

theorem Represents.map_head (h : Represents db sid q) {id : String} (hid : q.isHead id)
    (phase : HeadPhase) {p : ItemRow → Bool} {f : ItemRow → ItemRow}
    (hp : ∀ r ∈ db.rows sid, p r = true ↔ r.id = id)
    (hf : ∀ r, (f r).key = (r.id, r.position, phase.state, phase.token)) :
    ((db.rows sid).map fun r => if p r then f r else r).map ItemRow.key =
      (q.setHead phase).keys := by
  rw [keys_setHead hid, ← h.keys, map_map, map_map]
  refine map_congr_left fun r hr => ?_
  show (if p r = true then f r else r).key = if r.id = id then _ else r.key
  by_cases hpr : p r = true
  · rw [if_pos hpr, if_pos ((hp r hr).mp hpr)]
    exact hf r
  · rw [if_neg hpr, if_neg fun hrid => hpr ((hp r hr).mpr hrid)]

theorem Represents.remove_row (h : Represents db sid q) {row : ItemRow}
    (hrow : row ∈ db.rows sid) {p : ItemRow → Bool}
    (hp : ∀ r ∈ db.rows sid, p r = true ↔ r.id = row.id) (now : Int) :
    (((db.rows sid).filter fun r => !p r).map (closeRow row.position now)).map ItemRow.key =
      (q.remove row.id).keys := by
  rw [keys_remove (h.row hrow).1, ← h.keys, filter_map, map_map, map_map]
  have hfilter : (db.rows sid).filter (fun r => !p r) =
      (db.rows sid).filter ((fun k : ItemKey => decide (k.1 ≠ row.id)) ∘ ItemRow.key) := by
    refine filter_congr fun r hr => ?_
    show (!p r) = decide (r.id ≠ row.id)
    by_cases hpr : p r = true
    · simp [hpr, (hp r hr).mp hpr]
    · have hne : r.id ≠ row.id := fun hrid => hpr ((hp r hr).mpr hrid)
      simp [hpr, hne]
  rw [hfilter]
  refine map_congr_left fun r _ => ?_
  show (closeRow row.position now r).key = closeKey row.position r.key
  unfold closeRow closeKey closeGap
  by_cases hgt : r.position > row.position
  · rw [if_pos hgt, if_pos (show r.key.2.1 > row.position from hgt)]
    rfl
  · rw [if_neg hgt, if_neg (show ¬ r.key.2.1 > row.position from hgt)]

end

/-! ## operations -/

section
variable {db db' : TaskQueueDb} {sid : String} {q : PromptQueue} {now : Int} {s : TaskQueueSnapshot}

variable {itemId token : String}

theorem represents_snapshot (h : Represents db sid q) (hok : db.snapshot sid = .ok (s, db')) :
    Represents db' sid q :=
  (snapshot_ok hok).1.represents h.keys (h.ensured 0)

theorem represents_addItem {draft : TaskQueueItemDraft} {id : String} (h : Represents db sid q)
    (hok : db.addItem sid draft id now = .ok (s, db')) :
    id ∉ q.items ∧ q.items.length < taskQueueMaxItems ∧ Represents db' sid (q.add id) := by
  obtain ⟨row, rfl, hst, htok, hpos, hlen, hfresh, he, _⟩ := addItem_ok hok
  rw [h.length] at hlen
  have hid : row.id ∉ q.items := by
    intro hmem
    obtain ⟨r, hr, hrid⟩ := h.exists_row hmem
    exact hfresh r (mem_filter.mp hr).1 hrid
  have hkey : row.key = (row.id, q.items.length, .queued, none) := by
    unfold ItemRow.key
    rw [hst, htok, hpos, h.positions, nextPosition_zipIdx]
  refine ⟨hid, hlen, he.represents ?_ ?_⟩
  · rw [keys_add hid hlen, map_append, h.keys, map_singleton, hkey]
  · rw [(add_items hid hlen).2]
    exact h.ensured now

theorem represents_deleteItem (h : Represents db sid q)
    (hok : db.deleteItem sid itemId now = .ok (s, db')) :
    (∀ t, q.isHead itemId → q.head ≠ .dispatching t) ∧ Represents db' sid (q.remove itemId) := by
  obtain ⟨row, hfind, hst, he, _⟩ := deleteItem_ok hok
  have hrow := mem_of_find?_eq_some hfind
  obtain rfl : row.id = itemId := by simpa using find?_some hfind
  have hphase : q.isHead row.id → q.head.state ≠ .dispatching := by
    intro hid
    rw [← (h.of_isHead hrow hid).1]
    exact hst
  refine ⟨fun t hid hd => hphase hid (hd ▸ rfl), he.represents ?_ ?_⟩
  · exact h.remove_row hrow (fun r _ => decide_eq_true_iff) now
  show (TaskQueueDb.ensured db sid now).activeDispatchToken =
    (if q.isHead row.id then HeadPhase.queued else q.head).token
  rw [h.ensured]
  by_cases hid : q.isHead row.id
  · rw [if_pos hid]
    exact HeadPhase.token_eq_none.mpr (hphase hid)
  · rw [if_neg hid]

theorem represents_clearQueue (h : Represents db sid q)
    (hok : db.clearQueue sid now = .ok (s, db')) : Represents db' sid q.clear := by
  obtain ⟨he, _⟩ := clearQueue_ok hok
  refine he.represents ?_ ?_
  · rw [keys_clear, ← h.keys, filter_map]
    congr 1
    refine filter_congr fun r _ => ?_
    show (!decide (r.state ≠ .dispatching)) = decide (r.state = .dispatching)
    simp
  have htoken : q.clear.head.token = q.head.token := by
    by_cases hd : ∃ t, q.head = .dispatching t
    · obtain ⟨t, ht⟩ := hd
      rw [(clear_of_dispatching ht).2, ht]
    have hd' : ∀ t, q.head ≠ .dispatching t := fun t ht => hd ⟨t, ht⟩
    rw [clear_of_not_dispatching hd']
    refine (HeadPhase.token_eq_none.mpr fun hs => hd ?_).symm
    exact HeadPhase.state_dispatching hs
  have hensured := h.ensured now
  rw [htoken, ← hensured]
  show (if (TaskQueueDb.ensured db sid now).activeDispatchToken = none then _ else
    TaskQueueDb.ensured db sid now).activeDispatchToken = _
  split
  · next hnone => exact hnone.symm
  · rfl

theorem represents_updateControl {patch : TaskQueueControlPatch} (h : Represents db sid q)
    (hok : db.updateControl sid patch now = .ok (s, db')) : Represents db' sid q := by
  obtain ⟨row', htok, _, he, _⟩ := updateControl_ok hok
  exact he.represents h.keys (htok.trans (h.ensured now))

theorem represents_retryItem (h : Represents db sid q)
    (hok : db.retryItem sid itemId now = .ok (s, db')) :
    q.isHead itemId ∧ (q.head = .failed ∨ q.head = .deliveryUnknown) ∧
      Represents db' sid (q.setHead .queued) := by
  obtain ⟨hcount, he, _⟩ := retryItem_ok hok
  obtain ⟨row, hrow, hmatch⟩ := countP_pos_iff.mp hcount
  simp only [Bool.and_eq_true, decide_eq_true_eq, retryable, Bool.or_eq_true] at hmatch
  obtain ⟨rfl, hst⟩ := hmatch
  have hne : row.state ≠ .queued := by
    rcases hst with hst | hst <;> rw [hst] <;> intro h <;> cases h
  obtain ⟨hid, hst', _⟩ := h.isHead_of_ne_queued hrow hne
  have hphase : q.head = .failed ∨ q.head = .deliveryUnknown := by
    rw [hst'] at hst
    cases hh : q.head with
    | failed => exact .inl rfl
    | deliveryUnknown => exact .inr rfl
    | queued | dispatching t =>
      rw [hh] at hst
      rcases hst with hst | hst <;> cases hst
  have hmatched : ∀ r ∈ db.rows sid,
      (decide (r.id = row.id) && retryable r) = true ↔ r.id = row.id := by
    intro r hr
    constructor
    · intro hr'
      exact of_decide_eq_true (Bool.and_eq_true_iff.mp hr').1
    · intro hrid
      obtain rfl := h.row_unique hr hrow hrid
      simpa [retryable] using hst
  refine ⟨hid, hphase, he.represents ?_ ?_⟩
  · exact h.map_head hid .queued hmatched fun _ => rfl
  · rw [(setHead_items hid .queued).2]
    rfl

theorem represents_setRuntimeStatus {state : TaskQueueState} {reason : Option TaskQueueReason}
    (h : Represents db sid q) (hok : db.setRuntimeStatus sid state reason now = .ok (s, db')) :
    Represents db' sid q := by
  obtain ⟨row', htok, _, _, _, he, _⟩ := setRuntimeStatus_ok hok
  exact he.represents h.keys (htok.trans (h.ensured now))

theorem claimable_iff {r : ItemRow} :
    claimable itemId r = true ↔ r.id = itemId ∧ r.state = .queued ∧ r.dispatchToken = none := by
  simp [claimable, and_assoc]

theorem map_dispatch_none {p : ItemRow → Bool} {token : String} {l : List ItemRow}
    (hp : ∀ r ∈ l, p r = false) :
    (l.map fun r => if p r then r.dispatch token now else r) = l := by
  refine (map_congr_left fun r hr => ?_).trans (map_id l)
  rw [hp r hr]
  rfl

theorem represents_claimNext {generation : Nat} {token : String} {claim : Option TaskQueueClaim}
    (h : Represents db sid q) (hok : db.claimNext sid generation token now = .ok (claim, db')) :
    (claim = none ∧ db'.rows sid = db.rows sid ∧ db'.queues sid = db.queues sid) ∨
    (∃ c row, claim = some c ∧ c.token = token ∧ c.item.id = row.id ∧ row ∈ db.rows sid ∧
      q.isHead row.id ∧ q.head = .queued ∧
      Represents db' sid (q.setHead (.dispatching token))) := by
  rcases claimNext_ok hok with ⟨rfl, rfl | ⟨itemId, hcount, he⟩⟩ |
    ⟨item, row, rfl, hhead, hstate, _, _, _, _, he⟩
  · exact .inl ⟨rfl, rfl, rfl⟩
  · -- at most one item has the id, so none is claimable
    have hnone : ∀ r ∈ db.rows sid, claimable itemId r = false := by
      intro r hr
      by_contra hc
      have hc' : claimable itemId r = true := by simpa using hc
      refine hcount ?_
      have heq : ∀ r' ∈ db.rows sid, claimable itemId r' = true ↔ (r' == r) = true := by
        intro r' hr'
        rw [beq_iff_eq]
        constructor
        · intro hc''
          have hid := (claimable_iff.mp hc'').1.trans (claimable_iff.mp hc').1.symm
          exact h.row_unique hr' hr hid
        · rintro rfl
          exact hc'
      rw [countP_congr heq]
      exact count_eq_one_of_mem h.nodup hr
    refine .inl ⟨rfl, he.rows.trans ?_, he.queue⟩
    exact map_dispatch_none hnone
  obtain ⟨r, hr, rfl, hid⟩ := h.fetchHead_eq hhead
  obtain ⟨hst, htok⟩ := h.of_isHead hr hid
  have hqueued : q.head = .queued := HeadPhase.state_queued (hst.symm.trans hstate)
  rw [hqueued] at htok
  refine .inr ⟨_, r, rfl, rfl, rfl, hr, hid, hqueued, he.represents ?_ ?_⟩
  · refine h.map_head hid (.dispatching token) (fun r' hr' => ?_) fun _ => rfl
    rw [claimable_iff]
    constructor
    · exact fun hc => hc.1
    · intro hid'
      obtain rfl := h.row_unique hr' hr hid'
      exact ⟨rfl, hstate, htok⟩
  · rw [(setHead_items hid _).2]
    rfl

theorem claimed_iff_of_claimed (h : Represents db sid q) {row : ItemRow}
    (hrow : row ∈ db.rows sid) (hc : claimed itemId token row = true) :
    ∀ r ∈ db.rows sid, claimed itemId token r = true ↔ r.id = row.id := by
  intro r hr
  constructor
  · intro hr'
    exact (h.of_claimed hr hr').1.trans (h.of_claimed hrow hc).1.symm
  · intro hid
    obtain rfl := h.row_unique hr hrow hid
    exact hc

theorem represents_completeClaim {b : Bool} (h : Represents db sid q)
    (hok : db.completeClaim sid itemId token now = .ok (b, db')) :
    (b = false ∧ db' = db) ∨
    (b = true ∧ q.isHead itemId ∧ q.head = .dispatching token ∧
      Represents db' sid (q.remove itemId)) := by
  rcases completeClaim_ok hok with ⟨rfl, rfl, _⟩ | ⟨row, qrow, rfl, hrow, hc, _, _, he⟩
  · exact .inl ⟨rfl, rfl⟩
  obtain ⟨rfl, hid, hhead⟩ := h.of_claimed hrow hc
  refine .inr ⟨rfl, hid, hhead, he.represents ?_ ?_⟩
  · exact h.remove_row hrow (claimed_iff_of_claimed h hrow hc) now
  · show none = (if q.isHead row.id then HeadPhase.queued else q.head).token
    rw [if_pos hid]
    rfl

theorem represents_finishClaim {phase : HeadPhase} {code message : Option String} {b : Bool}
    (h : Represents db sid q) (hphase : phase.token = none)
    (hok : db.finishClaim sid itemId token phase.state code message now = .ok (b, db')) :
    (b = false ∧ db' = db) ∨
    (b = true ∧ q.isHead itemId ∧ q.head = .dispatching token ∧
      Represents db' sid (q.setHead phase)) := by
  rcases finishClaim_ok hok with ⟨rfl, rfl, _⟩ | ⟨qrow, rfl, hcount, _, _, he⟩
  · exact .inl ⟨rfl, rfl⟩
  obtain ⟨row, hrow, hc⟩ := countP_pos_iff.mp hcount
  obtain ⟨rfl, hid, hhead⟩ := h.of_claimed hrow hc
  refine .inr ⟨rfl, hid, hhead, he.represents ?_ ?_⟩
  · refine h.map_head hid phase (claimed_iff_of_claimed h hrow hc) fun r => ?_
    rw [hphase]
    rfl
  · rw [(setHead_items hid phase).2, hphase]
    rfl

theorem Represents.active_of_dispatching (h : Represents db sid q) {t : String}
    (ht : q.head = .dispatching t) :
    ∃ row, db.queues sid = some row ∧ row.activeDispatchToken = some t := by
  have htoken := h.token
  unfold activeToken at htoken
  rw [ht] at htoken
  exact Option.bind_eq_some_iff.mp htoken

theorem recoverInflight_idle {n : Nat} (h : Represents db sid q)
    (hok : db.recoverInflight now = .ok (n, db')) (hd : ∀ t, q.head ≠ .dispatching t) :
    db'.rows sid = db.rows sid ∧ db'.queues sid = db.queues sid := by
  obtain ⟨hrows, hqueues⟩ := recoverInflight_ok hok sid
  have hnone : ∀ r ∈ db.rows sid, isDispatching r = false := by
    intro r hr
    refine decide_eq_false fun hst => ?_
    obtain ⟨t, _, ht⟩ := (h.dispatching_iff hr).mp hst
    exact hd t ht
  refine ⟨?_, ?_⟩
  · rw [hrows]
    refine (map_congr_left fun r hr => ?_).trans (map_id _)
    rw [hnone r hr]
    rfl
  have htok : q.head.token = none := by
    refine HeadPhase.token_eq_none.mpr fun hs => ?_
    obtain ⟨t, ht⟩ := HeadPhase.state_dispatching hs
    exact hd t ht
  have hany : (db.rows sid).any isDispatching = false := by
    rw [any_eq_false]
    intro r hr
    rw [hnone r hr]
    exact Bool.false_ne_true
  have htoken := h.token
  unfold activeToken at htoken
  rw [hqueues]
  cases hq : db.queues sid with
  | none => rfl
  | some row =>
    rw [hq, htok] at htoken
    have hactive : row.activeDispatchToken = none := htoken
    rw [Option.map_some, hactive, hany]
    rfl

theorem recoverInflight_busy {n : Nat} (h : Represents db sid q)
    (hok : db.recoverInflight now = .ok (n, db')) {t : String} (ht : q.head = .dispatching t) :
    ∃ row, db.queues sid = some row ∧
      db'.queues sid = some (row.unclaim .actionRequired (some .deliveryUnknown) now) := by
  obtain ⟨row, hq, hactive⟩ := h.active_of_dispatching ht
  refine ⟨row, hq, ?_⟩
  rw [(recoverInflight_ok hok sid).2, hq, Option.map_some, hactive]
  rfl

theorem represents_recoverInflight {n : Nat} (h : Represents db sid q)
    (hok : db.recoverInflight now = .ok (n, db')) : Represents db' sid q.recover := by
  by_cases hd : ∃ t, q.head = .dispatching t
  · obtain ⟨t, ht⟩ := hd
    obtain ⟨id, hid⟩ := exists_isHead ht
    rw [recover_of_dispatching ht]
    refine ⟨?_, ?_⟩
    · rw [(recoverInflight_ok hok sid).1]
      refine h.map_head hid .deliveryUnknown (fun r hr => ?_) fun _ => rfl
      rw [isDispatching, decide_eq_true_iff, h.dispatching_iff hr]
      constructor
      · rintro ⟨_, hhead, _⟩
        exact hhead.unique hid
      · rintro rfl
        exact ⟨t, hid, ht⟩
    · obtain ⟨row, _, hq'⟩ := recoverInflight_busy h hok ht
      unfold activeToken
      rw [hq', (setHead_items hid _).2]
      rfl
  · have hd' : ∀ t, q.head ≠ .dispatching t := fun t ht => hd ⟨t, ht⟩
    obtain ⟨hrows, hqueues⟩ := recoverInflight_idle h hok hd'
    rw [recover_of_not_dispatching hd']
    exact h.frame hrows hqueues

end

end TaskQueueDb
end CcPanes

import CcPanes.TaskQueue.Repository

/-!
# What the operations of the repository do

Every operation that succeeds leaves one session with certain items and a certain queue row, and
every other session as it was.
-/

namespace CcPanes
open List Function
namespace TaskQueueDb

open DensePositions

variable {sid : String} {db : TaskQueueDb}

/-- only session `sid` is touched, and the runtime row stays -/
structure TouchesOnly (sid : String) (db db' : TaskQueueDb) : Prop where
  rows : ∀ sid', sid' ≠ sid → db'.rows sid' = db.rows sid'
  queues : ∀ sid', sid' ≠ sid → db'.queues sid' = db.queues sid'
  runtime : db.runtime.isSome → db'.runtime.isSome

theorem TouchesOnly.refl (sid : String) (db : TaskQueueDb) : TouchesOnly sid db db :=
  ⟨fun _ _ => rfl, fun _ _ => rfl, fun h => h⟩

theorem TouchesOnly.trans {db db' db'' : TaskQueueDb} (h : TouchesOnly sid db db')
    (h' : TouchesOnly sid db' db'') : TouchesOnly sid db db'' :=
  ⟨fun s hs => (h'.rows s hs).trans (h.rows s hs),
    fun s hs => (h'.queues s hs).trans (h.queues s hs), fun hr => h'.runtime (h.runtime hr)⟩

/-- session `sid` is left with these items and this queue row -/
structure Effect (sid : String) (db db' : TaskQueueDb) (rows' : List ItemRow)
    (queue' : Option QueueRow) : Prop where
  rows : db'.rows sid = rows'
  queue : db'.queues sid = queue'
  frame : TouchesOnly sid db db'

theorem Effect.refl (sid : String) (db : TaskQueueDb) :
    Effect sid db db (db.rows sid) (db.queues sid) :=
  ⟨rfl, rfl, TouchesOnly.refl sid db⟩

/-! ## statements -/

section
variable {db' : TaskQueueDb} {rows' : List ItemRow} {queue' : Option QueueRow}
  {f : ItemRow → ItemRow} {row : ItemRow}

theorem Effect.ensureRuntime (h : Effect sid db db' rows' queue') (now : Int) :
    Effect sid db (db'.ensureRuntime now) rows' queue' :=
  ⟨h.rows, h.queue, h.frame.trans ⟨fun _ _ => rfl, fun _ _ => rfl, fun _ => rfl⟩⟩

theorem Effect.updateQueue (h : Effect sid db db' rows' queue') (f : QueueRow → QueueRow) :
    Effect sid db (db'.updateQueue sid f) rows' (queue'.map f) := by
  refine ⟨h.rows, ?_, h.frame.trans ⟨fun _ _ => rfl, fun s hs => ?_, fun hr => hr⟩⟩
  · show update db'.queues sid ((db'.queues sid).map f) sid = queue'.map f
    rw [update_self, h.queue]
  · show update db'.queues sid _ s = db'.queues s
    rw [update_of_ne hs]

theorem Effect.ensureQueue (h : Effect sid db db' rows' queue') (now : Int) :
    Effect sid db (db'.ensureQueue sid now) rows' (some (queue'.getD (QueueRow.fresh now))) := by
  refine ⟨h.rows, ?_, h.frame.trans ⟨fun _ _ => rfl, fun s hs => ?_, fun hr => hr⟩⟩
  · show update db'.queues sid _ sid = _
    rw [update_self, h.queue]
  · show update db'.queues sid _ s = db'.queues s
    rw [update_of_ne hs]

theorem rows_insert_self (db : TaskQueueDb) (h : row.sessionId = sid) :
    rows { db with items := db.items ++ [row] } sid = db.rows sid ++ [row] := by
  unfold rows
  rw [filter_append, filter_cons_of_pos (by simpa using h), filter_nil]

theorem rows_insert_other (db : TaskQueueDb) {sid' : String} (h : row.sessionId ≠ sid') :
    rows { db with items := db.items ++ [row] } sid' = db.rows sid' := by
  unfold rows
  rw [filter_append, filter_cons_of_neg (by simpa using h), filter_nil,
    append_nil]

theorem Effect.insertItem (h : Effect sid db db' rows' queue') (hrow : row.sessionId = sid) :
    Effect sid db { db' with items := db'.items ++ [row] } (rows' ++ [row]) queue' := by
  refine ⟨?_, h.queue, h.frame.trans ⟨fun s hs => ?_, fun _ _ => rfl, fun hr => hr⟩⟩
  · rw [rows_insert_self db' hrow, h.rows]
  · exact rows_insert_other db' (by rw [hrow]; exact hs.symm)

theorem rows_deleteItems_self (db : TaskQueueDb) (sid : String) (p : ItemRow → Bool) :
    (db.deleteItems sid p).rows sid = (db.rows sid).filter fun r => !p r := by
  unfold rows deleteItems
  rw [filter_filter, filter_filter]
  refine filter_congr fun r _ => ?_
  cases hr : decide (r.sessionId = sid) <;> simp_all

theorem rows_deleteItems_other (db : TaskQueueDb) {sid sid' : String} (p : ItemRow → Bool)
    (h : sid' ≠ sid) : (db.deleteItems sid p).rows sid' = db.rows sid' := by
  unfold rows deleteItems
  rw [filter_filter]
  refine filter_congr fun r _ => ?_
  by_cases hr : r.sessionId = sid'
  · have hne : r.sessionId ≠ sid := fun hs => h (hr.symm.trans hs)
    simp [hr, h]
  · simp [hr]

theorem Effect.deleteItems (h : Effect sid db db' rows' queue') (p : ItemRow → Bool) :
    Effect sid db (db'.deleteItems sid p) (rows'.filter fun r => !p r) queue' := by
  refine ⟨?_, h.queue, h.frame.trans ⟨fun s hs => ?_, fun _ _ => rfl, fun hr => hr⟩⟩
  · rw [rows_deleteItems_self, h.rows]
  · exact rows_deleteItems_other db' p hs

theorem rows_map (items : List ItemRow) (sid : String) {g : ItemRow → ItemRow}
    (hg : ∀ r, (g r).sessionId = r.sessionId) :
    (items.map g).filter (fun r => r.sessionId = sid) =
      (items.filter fun r => r.sessionId = sid).map g := by
  rw [filter_map]
  congr 1
  refine filter_congr fun r _ => ?_
  simp [hg r]

theorem rows_updateItems_self (db : TaskQueueDb) (sid : String) (p : ItemRow → Bool)
    (hf : ∀ r, (f r).sessionId = r.sessionId) :
    (db.updateItems sid p f).rows sid = (db.rows sid).map fun r => if p r then f r else r := by
  unfold rows updateItems
  rw [rows_map]
  · refine map_congr_left fun r hr => ?_
    have hsid : r.sessionId = sid := of_decide_eq_true (mem_filter.mp hr).2
    simp [hsid]
  intro r
  split
  · exact hf r
  · rfl

theorem rows_updateItems_other (db : TaskQueueDb) {sid sid' : String} (p : ItemRow → Bool)
    (hf : ∀ r, (f r).sessionId = r.sessionId) (h : sid' ≠ sid) :
    (db.updateItems sid p f).rows sid' = db.rows sid' := by
  unfold rows updateItems
  rw [rows_map]
  · refine (map_congr_left fun r hr => ?_).trans (map_id _)
    have hsid : r.sessionId = sid' := of_decide_eq_true (mem_filter.mp hr).2
    simp [hsid, h]
  intro r
  split
  · exact hf r
  · rfl

theorem Effect.updateItems (h : Effect sid db db' rows' queue') (p : ItemRow → Bool)
    (hf : ∀ r, (f r).sessionId = r.sessionId) :
    Effect sid db (db'.updateItems sid p f) (rows'.map fun r => if p r then f r else r)
      queue' := by
  refine ⟨?_, h.queue, h.frame.trans ⟨fun s hs => ?_, fun _ _ => rfl, fun hr => hr⟩⟩
  · rw [rows_updateItems_self db' sid p hf, h.rows]
  · exact rows_updateItems_other db' p hf hs

end

def closeRow (gap : Nat) (now : Int) (r : ItemRow) : ItemRow :=
  if r.position > gap then r.moveUp now else r

theorem Effect.closePositions {db db' : TaskQueueDb} {rows' : List ItemRow}
    {queue' : Option QueueRow} (h : Effect sid db db' rows' queue') (gap : Nat) (now : Int) :
    Effect sid db (db'.closePositions sid gap now) (rows'.map (closeRow gap now)) queue' := by
  have hupd := h.updateItems (fun r => r.position > gap) (f := fun r => r.moveUp now) fun _ => rfl
  have hfun : (fun r : ItemRow => if decide (r.position > gap) = true then r.moveUp now else r) =
      closeRow gap now := by
    funext r
    simp [closeRow]
  rw [hfun] at hupd
  exact hupd

theorem withSnapshot_ok {db db' : TaskQueueDb} {s : TaskQueueSnapshot}
    (h : db.withSnapshot sid = .ok (s, db')) : db' = db ∧ db.readSnapshot sid = .ok s := by
  obtain ⟨s', hs, hok⟩ := bind_ok h
  cases Except.ok.inj hok
  exact ⟨rfl, hs⟩

theorem readSnapshot_ok {s : TaskQueueSnapshot} (h : db.readSnapshot sid = .ok s) :
    ∃ q, db.queues sid = some q ∧ s.sessionId = sid ∧
      s.items = db.fetchItems sid ∧ s.paused = q.paused ∧ s.unattended = q.unattended ∧
      s.revision = q.revision := by
  obtain ⟨runtime, _, hok⟩ := bind_ok h
  cases hq : db.queues sid with
  | none =>
    rw [hq] at hok
    cases hok
  | some q =>
    rw [hq] at hok
    cases hok
    exact ⟨q, rfl, rfl, rfl, rfl, rfl, rfl⟩

theorem withSnapshot_succeeds {q : QueueRow} (hr : db.runtime.isSome)
    (hq : db.queues sid = some q) : ∃ s, db.withSnapshot sid = .ok (s, db) := by
  obtain ⟨runtime, hr⟩ := Option.isSome_iff_exists.mp hr
  unfold withSnapshot readSnapshot readRuntime
  rw [hr, hq]
  exact ⟨_, rfl⟩

theorem length_fetchItems (db : TaskQueueDb) (sid : String) :
    (db.fetchItems sid).length = (db.rows sid).length := by
  unfold fetchItems
  rw [length_map, length_insertionSort]

/-! ## operations -/

section
variable {db' : TaskQueueDb} {now : Int} {s : TaskQueueSnapshot} {itemId token : String} {b : Bool}

/-- the queue row a session has after `ensure_queue` -/
def ensured (db : TaskQueueDb) (sid : String) (now : Int) : QueueRow :=
  (db.queues sid).getD (QueueRow.fresh now)

theorem effect_ensureQueue (db : TaskQueueDb) (sid : String) (now : Int) :
    Effect sid db (db.ensureQueue sid now) (db.rows sid) (some (ensured db sid now)) :=
  (Effect.refl sid db).ensureQueue now

theorem effect_ensureBoth (db : TaskQueueDb) (sid : String) (now : Int) :
    Effect sid db ((db.ensureRuntime now).ensureQueue sid now) (db.rows sid)
      (some (ensured db sid now)) :=
  ((Effect.refl sid db).ensureRuntime now).ensureQueue now

theorem snapshot_ok (h : db.snapshot sid = .ok (s, db')) :
    Effect sid db db' (db.rows sid) (some (ensured db sid 0)) ∧ db'.readSnapshot sid = .ok s := by
  obtain ⟨rfl, hs⟩ := withSnapshot_ok h
  exact ⟨effect_ensureBoth db sid 0, hs⟩

theorem addItem_ok {draft : TaskQueueItemDraft} {id : String}
    (h : db.addItem sid draft id now = .ok (s, db')) :
    ∃ row : ItemRow, row.id = id ∧ row.state = .queued ∧ row.dispatchToken = none ∧
      row.position = nextPosition ((db.rows sid).map ItemRow.position) ∧
      (db.rows sid).length < taskQueueMaxItems ∧ (∀ r ∈ db.items, r.id ≠ id) ∧
      Effect sid db db' (db.rows sid ++ [row]) (some ((ensured db sid now).bump now)) ∧
      db'.readSnapshot sid = .ok s := by
  obtain ⟨d, _, h⟩ := bind_ok h
  have hbase := effect_ensureBoth db sid now
  simp only at h
  split at h
  · cases h
  next hlen =>
  obtain ⟨db₁, hins, h⟩ := bind_ok h
  unfold insertItem at hins
  split at hins
  · cases hins
  next hid =>
  cases hins
  obtain ⟨rfl, hs⟩ := withSnapshot_ok h
  refine ⟨_, ?_, ?_, ?_, ?_, Nat.lt_of_not_le hlen, ?_, (hbase.insertItem ?_).updateQueue _, hs⟩
  · rfl
  · rfl
  · rfl
  · rfl
  · intro r hr hrid
    exact hid (any_eq_true.mpr ⟨r, hr, decide_eq_true hrid⟩)
  · rfl

theorem deleteItem_ok {itemId : String} (h : db.deleteItem sid itemId now = .ok (s, db')) :
    ∃ row : ItemRow, (db.rows sid).find? (fun r => r.id = itemId) = some row ∧
      row.state ≠ .dispatching ∧
      Effect sid db db'
        (((db.rows sid).filter fun r => !decide (r.id = itemId)).map (closeRow row.position now))
        (some ((ensured db sid now).bump now)) ∧
      db'.readSnapshot sid = .ok s := by
  have hbase := effect_ensureQueue db sid now
  unfold deleteItem at h
  have hrows : (db.ensureQueue sid now).rows sid = db.rows sid := rfl
  simp only [hrows] at h
  cases hfind : (db.rows sid).find? fun r => r.id = itemId with
  | none =>
    rw [hfind] at h
    cases h
  | some row =>
    rw [hfind] at h
    simp only at h
    split at h
    · cases h
    next hst =>
    obtain ⟨rfl, hs⟩ := withSnapshot_ok h
    exact ⟨row, rfl, hst, ((hbase.deleteItems _).closePositions row.position now).updateQueue _, hs⟩

theorem clearQueue_ok (h : db.clearQueue sid now = .ok (s, db')) :
    Effect sid db db' ((db.rows sid).filter fun r => !decide (r.state ≠ .dispatching))
        (some (if (ensured db sid now).activeDispatchToken = none then
          (ensured db sid now).unclaim .running none now else ensured db sid now)) ∧
      db'.readSnapshot sid = .ok s := by
  obtain ⟨rfl, hs⟩ := withSnapshot_ok h
  exact ⟨((effect_ensureQueue db sid now).deleteItems _).updateQueue _, hs⟩

theorem clearQueue_succeeds (h : db.runtime.isSome) :
    ∃ s db', db.clearQueue sid now = .ok (s, db') := by
  have heffect := ((effect_ensureQueue db sid now).deleteItems fun r =>
    r.state ≠ .dispatching).updateQueue fun q =>
      if q.activeDispatchToken = none then q.unclaim .running none now else q
  obtain ⟨s, hs⟩ := withSnapshot_succeeds (heffect.frame.runtime h) heffect.queue
  exact ⟨s, _, hs⟩

theorem updateControl_ok {patch : TaskQueueControlPatch}
    (h : db.updateControl sid patch now = .ok (s, db')) :
    ∃ q' : QueueRow, q'.activeDispatchToken = (ensured db sid now).activeDispatchToken ∧
      q'.revision = (ensured db sid now).revision ∧
      Effect sid db db' (db.rows sid) (some (q'.bump now)) ∧ db'.readSnapshot sid = .ok s := by
  have hbase := effect_ensureQueue db sid now
  obtain ⟨paused, unattended⟩ := patch
  obtain ⟨_, _, h⟩ := bind_ok h
  obtain ⟨rfl, hs⟩ := withSnapshot_ok h
  cases paused with
  | none =>
    cases unattended with
    | none => exact ⟨_, rfl, rfl, hbase.updateQueue _, hs⟩
    | some u =>
      have hset := hbase.updateQueue fun q => q.setUnattended u now
      exact ⟨(ensured db sid now).setUnattended u now, rfl, rfl,
        hset.updateQueue fun q => q.bump now, hs⟩
  | some p =>
    have hpaused := hbase.updateQueue fun q => q.setPaused p now
    cases unattended with
    | none =>
      exact ⟨(ensured db sid now).setPaused p now, rfl, rfl,
        hpaused.updateQueue fun q => q.bump now, hs⟩
    | some u =>
      have hset := hpaused.updateQueue fun q => q.setUnattended u now
      exact ⟨((ensured db sid now).setPaused p now).setUnattended u now, rfl, rfl,
        hset.updateQueue fun q => q.bump now, hs⟩

theorem retryItem_ok {itemId : String} (h : db.retryItem sid itemId now = .ok (s, db')) :
    0 < (db.rows sid).countP (fun r => r.id = itemId && retryable r) ∧
      Effect sid db db' ((db.rows sid).map fun r =>
          if r.id = itemId && retryable r then r.settle .queued none none now else r)
        (some ((ensured db sid now).unclaim .running none now)) ∧
      db'.readSnapshot sid = .ok s := by
  have hbase := effect_ensureQueue db sid now
  unfold retryItem at h
  have hrows : (db.ensureQueue sid now).rows sid = db.rows sid := rfl
  simp only [hrows] at h
  split at h
  · split at h
    · cases h
    · cases h
  next hcount =>
  obtain ⟨rfl, hs⟩ := withSnapshot_ok h
  have hitems := hbase.updateItems (fun r => r.id = itemId && retryable r)
    (f := fun r => r.settle .queued none none now) fun _ => rfl
  exact ⟨Nat.pos_of_ne_zero hcount, hitems.updateQueue _, hs⟩

theorem setRuntimeStatus_ok {state : TaskQueueState} {reason : Option TaskQueueReason}
    (h : db.setRuntimeStatus sid state reason now = .ok (s, db')) :
    ∃ q' : QueueRow, q'.activeDispatchToken = (ensured db sid now).activeDispatchToken ∧
      q'.paused = (ensured db sid now).paused ∧
      q'.unattended = (ensured db sid now).unattended ∧
      (ensured db sid now).revision ≤ q'.revision ∧
      Effect sid db db' (db.rows sid) (some q') ∧ db'.readSnapshot sid = .ok s := by
  have hbase := effect_ensureBoth db sid now
  unfold setRuntimeStatus at h
  simp only at h
  split at h
  · cases h
  obtain ⟨rfl, hs⟩ := withSnapshot_ok h
  refine ⟨_, ?_, ?_, ?_, ?_, hbase.updateQueue _, hs⟩
  all_goals dsimp only
  all_goals split
  all_goals first | rfl | exact Nat.le_succ _

/-- `claim_next` takes no item, and then at most rewrites several items of one id, or it takes the
head of a queue that is not paused and not claimed -/
theorem claimNext_ok {generation : Nat} {claim : Option TaskQueueClaim}
    (h : db.claimNext sid generation token now = .ok (claim, db')) :
    (claim = none ∧ (db' = db ∨ ∃ itemId, (db.rows sid).countP (claimable itemId) ≠ 1 ∧
      Effect sid db db' ((db.rows sid).map fun r =>
        if claimable itemId r then r.dispatch token now else r) (db.queues sid))) ∨
    (∃ item q, claim = some ⟨token, generation, { item with state := .dispatching }⟩ ∧
      db.fetchHead sid = some item ∧ item.state = .queued ∧
      (db.rows sid).countP (claimable item.id) = 1 ∧
      db.queues sid = some q ∧ q.paused = false ∧ q.activeDispatchToken = none ∧
      Effect sid db db' ((db.rows sid).map fun r =>
        if claimable item.id r then r.dispatch token now else r) (some (q.claim token now))) := by
  have hidle : ∀ {c : Option TaskQueueClaim}, Except.ok (none, db) = (.ok (c, db') : AppResult _) →
      c = none ∧ db' = db := by
    intro c hc
    obtain ⟨h1, h2⟩ := Prod.mk.inj (Except.ok.inj hc)
    exact ⟨h1.symm, h2.symm⟩
  obtain ⟨runtime, _, h⟩ := bind_ok h
  split at h
  · exact .inl ⟨(hidle h).1, .inl (hidle h).2⟩
  cases hq : db.queues sid with
  | none =>
    rw [hq] at h
    exact .inl ⟨(hidle h).1, .inl (hidle h).2⟩
  | some q =>
    rw [hq] at h
    simp only at h
    split at h
    · exact .inl ⟨(hidle h).1, .inl (hidle h).2⟩
    next hopen =>
    obtain ⟨hpaused, htoken⟩ : q.paused = false ∧ q.activeDispatchToken = none := by
      simpa using hopen
    cases hhead : db.fetchHead sid with
    | none =>
      rw [hhead] at h
      exact .inl ⟨(hidle h).1, .inl (hidle h).2⟩
    | some item =>
      rw [hhead] at h
      simp only at h
      split at h
      · exact .inl ⟨(hidle h).1, .inl (hidle h).2⟩
      next hstate =>
      have hitems : Effect sid db (db.updateItems sid (claimable item.id) fun r =>
          r.dispatch token now) ((db.rows sid).map fun r =>
            if claimable item.id r then r.dispatch token now else r) (db.queues sid) :=
        (Effect.refl sid db).updateItems (claimable item.id) fun _ => rfl
      split at h
      · next hcount =>
        cases Except.ok.inj h
        rw [hq] at hitems
        exact .inl ⟨rfl, .inr ⟨item.id, hcount, hitems⟩⟩
      next hcount =>
      split at h
      · cases h
      cases Except.ok.inj h
      have hqueue := hitems.updateQueue fun q =>
        if q.activeDispatchToken = none then q.claim token now else q
      rw [hq, Option.map_some, if_pos htoken] at hqueue
      exact .inr ⟨item, q, rfl, rfl, Decidable.not_not.mp hstate, Decidable.not_not.mp hcount,
        rfl, hpaused, htoken, hqueue⟩

theorem any_heldBy (h : (db.queues sid).any (heldBy token) = true) :
    ∃ q, db.queues sid = some q ∧ q.activeDispatchToken = some token := by
  cases hq : db.queues sid with
  | none =>
    rw [hq] at h
    cases h
  | some q =>
    rw [hq] at h
    exact ⟨q, rfl, of_decide_eq_true h⟩

theorem completeClaim_ok (h : db.completeClaim sid itemId token now = .ok (b, db')) :
    (b = false ∧ db' = db ∧ (db.rows sid).find? (fun r =>
      claimed itemId token r && (db.queues sid).any (heldBy token)) = none) ∨
    (∃ row q, b = true ∧ row ∈ db.rows sid ∧ claimed itemId token row = true ∧
      db.queues sid = some q ∧ q.activeDispatchToken = some token ∧ Effect sid db db'
        (((db.rows sid).filter fun r => !claimed itemId token r).map (closeRow row.position now))
        (some (q.unclaim .running none now))) := by
  unfold completeClaim at h
  cases hfind : (db.rows sid).find? (fun r =>
      claimed itemId token r && (db.queues sid).any (heldBy token)) with
  | none =>
    rw [hfind] at h
    cases Except.ok.inj h
    exact .inl ⟨rfl, rfl, rfl⟩
  | some row =>
    rw [hfind] at h
    have hmatch : (claimed itemId token row && (db.queues sid).any (heldBy token)) = true :=
      find?_some (p := fun r => claimed itemId token r && _) hfind
    obtain ⟨hclaimed, hheld⟩ := Bool.and_eq_true_iff.mp hmatch
    obtain ⟨q, hq, htoken⟩ := any_heldBy hheld
    have hheldq : heldBy token q = true := decide_eq_true htoken
    have heffect := (((Effect.refl sid db).deleteItems (claimed itemId token)).closePositions
      row.position now).updateQueue fun q =>
        if heldBy token q then q.unclaim .running none now else q
    rw [hq, Option.map_some, if_pos hheldq] at heffect
    cases Except.ok.inj h
    exact .inr ⟨row, q, hheld, mem_of_find?_eq_some hfind, hclaimed, hq, htoken, heffect⟩

theorem finishClaim_ok {state : QueueItemState} {code message : Option String}
    (h : db.finishClaim sid itemId token state code message now = .ok (b, db')) :
    (b = false ∧ db' = db ∧ (db.rows sid).countP (fun r =>
      claimed itemId token r && (db.queues sid).any (heldBy token)) = 0) ∨
    (∃ q, b = true ∧ 0 < (db.rows sid).countP (claimed itemId token) ∧
      db.queues sid = some q ∧ q.activeDispatchToken = some token ∧
      Effect sid db db' ((db.rows sid).map fun r =>
          if claimed itemId token r then r.settle state code message now else r)
        (some (q.unclaim (finishedQueueState state) (finishedReason state) now))) := by
  unfold finishClaim at h
  simp only at h
  split at h
  · next hcount =>
    cases Except.ok.inj h
    exact .inl ⟨rfl, rfl, hcount⟩
  next hcount =>
  split at h
  · cases h
  next hheld =>
  have hheld' : (db.queues sid).any (heldBy token) = true := by
    simpa [updateItems] using hheld
  obtain ⟨q, hq, htoken⟩ := any_heldBy hheld'
  cases Except.ok.inj h
  have hmatched : (fun r => claimed itemId token r && (db.queues sid).any (heldBy token)) =
      claimed itemId token := by
    funext r
    rw [hheld', Bool.and_true]
  rw [hmatched] at hcount ⊢
  have heffect := ((Effect.refl sid db).updateItems (claimed itemId token)
    (f := fun r => r.settle state code message now) fun _ => rfl).updateQueue fun q =>
      if heldBy token q then q.unclaim (finishedQueueState state) (finishedReason state) now else q
  have hheldq : heldBy token q = true := decide_eq_true htoken
  rw [hq, Option.map_some, if_pos hheldq] at heffect
  exact .inr ⟨q, rfl, Nat.pos_of_ne_zero hcount, hq, htoken, heffect⟩

theorem claimNext_frame {generation : Nat} {claim : Option TaskQueueClaim}
    (h : db.claimNext sid generation token now = .ok (claim, db')) : TouchesOnly sid db db' := by
  rcases claimNext_ok h with ⟨_, rfl | ⟨_, _, he⟩⟩ | ⟨_, _, _, _, _, _, _, _, _, he⟩
  · exact TouchesOnly.refl sid db'
  · exact he.frame
  · exact he.frame

theorem completeClaim_frame (h : db.completeClaim sid itemId token now = .ok (b, db')) :
    TouchesOnly sid db db' := by
  rcases completeClaim_ok h with ⟨_, rfl, _⟩ | ⟨_, _, _, _, _, _, _, he⟩
  · exact TouchesOnly.refl sid db'
  · exact he.frame

theorem finishClaim_frame {state : QueueItemState} {code message : Option String}
    (h : db.finishClaim sid itemId token state code message now = .ok (b, db')) :
    TouchesOnly sid db db' := by
  rcases finishClaim_ok h with ⟨_, rfl, _⟩ | ⟨_, _, _, _, _, he⟩
  · exact TouchesOnly.refl sid db'
  · exact he.frame

theorem setGlobalEnabled_ok {enabled : Bool} {runtime : TaskQueueRuntime}
    (h : db.setGlobalEnabled enabled now = .ok (runtime, db')) :
    db'.items = db.items ∧ db'.queues = db.queues := by
  obtain ⟨_, _, h⟩ := bind_ok h
  obtain ⟨_, rfl⟩ := Prod.mk.inj (Except.ok.inj h)
  exact ⟨rfl, rfl⟩

theorem recoverInflight_ok {n : Nat} (h : db.recoverInflight now = .ok (n, db')) (sid : String) :
    db'.rows sid = ((db.rows sid).map fun r => if isDispatching r then interrupted now r else r) ∧
    db'.queues sid = (db.queues sid).map fun q =>
      if q.activeDispatchToken.isSome || (db.rows sid).any isDispatching then
        q.unclaim .actionRequired (some .deliveryUnknown) now
      else q := by
  obtain ⟨_, rfl⟩ := Prod.mk.inj (Except.ok.inj h)
  refine ⟨?_, rfl⟩
  unfold rows
  rw [rows_map]
  intro r
  split
  · rfl
  · rfl

end

def operandOf : QueueOp → Option String
  | .snapshot sid | .addItem sid _ _ _ | .deleteItem sid _ _ | .clearQueue sid _
  | .updateControl sid _ _ | .retryItem sid _ _ | .setRuntimeStatus sid _ _ _
  | .claimNext sid _ _ _ | .completeClaim sid _ _ _ | .returnClaimToQueue sid _ _ _
  | .failClaim sid _ _ _ _ _ | .markDeliveryUnknown sid _ _ _ _ => some sid
  | .setGlobalEnabled _ _ | .recoverInflight _ => none

theorem commit_frame {α : Type} {r : AppResult (α × TaskQueueDb)}
    (hok : ∀ a db', r = .ok (a, db') → TouchesOnly sid db db') :
    TouchesOnly sid db (db.commit r) := by
  cases r with
  | error => exact TouchesOnly.refl sid db
  | ok p => exact hok p.1 p.2 rfl

/-- **An operation on a session touches only that one.** -/
theorem apply_frame (db : TaskQueueDb) {op : QueueOp} (h : operandOf op = some sid) :
    TouchesOnly sid db (op.apply db) := by
  cases op with
  | snapshot sid' =>
    cases h
    exact commit_frame fun s db' hok => (snapshot_ok hok).1.frame
  | addItem sid' =>
    cases h
    refine commit_frame fun s db' hok => ?_
    obtain ⟨_, _, _, _, _, _, _, he, _⟩ := addItem_ok hok
    exact he.frame
  | deleteItem sid' =>
    cases h
    refine commit_frame fun s db' hok => ?_
    obtain ⟨_, _, _, he, _⟩ := deleteItem_ok hok
    exact he.frame
  | clearQueue sid' =>
    cases h
    exact commit_frame fun s db' hok => (clearQueue_ok hok).1.frame
  | updateControl sid' =>
    cases h
    refine commit_frame fun s db' hok => ?_
    obtain ⟨_, _, _, he, _⟩ := updateControl_ok hok
    exact he.frame
  | retryItem sid' =>
    cases h
    exact commit_frame fun s db' hok => (retryItem_ok hok).2.1.frame
  | setRuntimeStatus sid' =>
    cases h
    refine commit_frame fun s db' hok => ?_
    obtain ⟨_, _, _, _, _, he, _⟩ := setRuntimeStatus_ok hok
    exact he.frame
  | claimNext sid' =>
    cases h
    exact commit_frame fun claim db' hok => claimNext_frame hok
  | completeClaim sid' =>
    cases h
    exact commit_frame fun b db' hok => completeClaim_frame hok
  | returnClaimToQueue sid' itemId token now | failClaim sid' itemId token code message now
  | markDeliveryUnknown sid' =>
    cases h
    exact commit_frame fun b db' hok => finishClaim_frame hok
  | setGlobalEnabled => cases h
  | recoverInflight => cases h

end TaskQueueDb
end CcPanes

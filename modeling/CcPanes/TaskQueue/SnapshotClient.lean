import CcPanes.Foundation.NewestVersion
import CcPanes.TaskQueue.QueueInvariant

/-!
# The snapshots a client is handed

The store of `useTaskQueueStore.ts` turns away a snapshot whose revision is smaller than the one it
shows.  That converges if the revision grows with every change of the items or the control flags,
and every operation but one sees to that: `clear_queue` bumps the revision only of a queue without
a dispatch claim, and still deletes the waiting items of a claimed one.
-/

namespace CcPanes

open NewestVersion PromptQueue List Option Function

/-! ## the store -/

structure TaskQueueStore where
  snapshots : String → Option TaskQueueSnapshot
  errors : String → Option String

namespace TaskQueueStore

def empty : TaskQueueStore := ⟨fun _ => none, fun _ => none⟩

def applySnapshot (state : TaskQueueStore) (snapshot : TaskQueueSnapshot) : TaskQueueStore :=
  if (state.snapshots snapshot.sessionId).any fun current =>
      snapshot.revision < current.revision then state
  else
    { snapshots := Function.update state.snapshots snapshot.sessionId (some snapshot)
      errors := Function.update state.errors snapshot.sessionId none }

def receive (delivered : List TaskQueueSnapshot) : TaskQueueStore :=
  delivered.foldl applySnapshot empty

theorem applySnapshot_self (state : TaskQueueStore) (snapshot : TaskQueueSnapshot) :
    (state.applySnapshot snapshot).snapshots snapshot.sessionId =
      keepNewest TaskQueueSnapshot.revision (state.snapshots snapshot.sessionId) snapshot := by
  unfold applySnapshot keepNewest
  cases hc : state.snapshots snapshot.sessionId with
  | none =>
    show update state.snapshots snapshot.sessionId (some snapshot) snapshot.sessionId = _
    rw [update_self]
  | some current =>
    by_cases hlt : snapshot.revision < current.revision
    · simp [hlt, hc]
    · simp [hlt]

theorem applySnapshot_other (state : TaskQueueStore) (snapshot : TaskQueueSnapshot) {sid : String}
    (h : snapshot.sessionId ≠ sid) :
    (state.applySnapshot snapshot).snapshots sid = state.snapshots sid := by
  unfold applySnapshot
  split
  · rfl
  · show update state.snapshots snapshot.sessionId _ sid = state.snapshots sid
    rw [update_of_ne h.symm]

theorem receive_snapshots (state : TaskQueueStore) (delivered : List TaskQueueSnapshot)
    (sid : String) :
    (delivered.foldl applySnapshot state).snapshots sid =
      receiveAll TaskQueueSnapshot.revision (state.snapshots sid)
        (delivered.filter fun s => s.sessionId = sid) := by
  induction delivered generalizing state with
  | nil => rfl
  | cons s rest ih =>
    rw [foldl_cons, ih]
    by_cases hs : s.sessionId = sid
    · subst hs
      rw [filter_cons_of_pos (by simp), applySnapshot_self]
      rfl
    · rw [filter_cons_of_neg (by simpa using hs), applySnapshot_other state s hs]

end TaskQueueStore

/-! ## contents and revision -/

structure QueueContents where
  items : List TaskQueueItem
  paused : Bool
  unattended : Bool
  deriving DecidableEq

def TaskQueueSnapshot.contents (s : TaskQueueSnapshot) : QueueContents :=
  ⟨s.items, s.paused, s.unattended⟩

namespace TaskQueueDb

def contents (db : TaskQueueDb) (sid : String) : QueueContents :=
  ⟨db.fetchItems sid, (ensured db sid 0).paused, (ensured db sid 0).unattended⟩

def revision (db : TaskQueueDb) (sid : String) : Nat := (ensured db sid 0).revision

def Moves (sid : String) (db db' : TaskQueueDb) : Prop :=
  db.revision sid ≤ db'.revision sid ∧
    (db'.contents sid ≠ db.contents sid → db.revision sid < db'.revision sid)

section
variable {db db' : TaskQueueDb} {sid : String} {now : Int} {row : QueueRow}

theorem Moves.of_lt (h : db.revision sid < db'.revision sid) : Moves sid db db' :=
  ⟨Nat.le_of_lt h, fun _ => h⟩

theorem Moves.of_eq (hle : db.revision sid ≤ db'.revision sid)
    (hc : db'.contents sid = db.contents sid) : Moves sid db db' :=
  ⟨hle, fun hne => absurd hc hne⟩

theorem Moves.of_frame (hrows : db'.rows sid = db.rows sid)
    (hqueues : db'.queues sid = db.queues sid) : Moves sid db db' := by
  have hensured : ensured db' sid 0 = ensured db sid 0 := by
    unfold ensured
    rw [hqueues]
  refine Moves.of_eq ?_ ?_
  · unfold revision
    rw [hensured]
  · unfold contents fetchItems
    rw [hensured, hrows]

theorem ensured_revision (now : Int) : (ensured db sid now).revision = db.revision sid := by
  unfold revision ensured
  cases db.queues sid with
  | none => rfl
  | some => rfl

theorem ensured_flags : (ensured db sid now).paused = (ensured db sid 0).paused ∧
    (ensured db sid now).unattended = (ensured db sid 0).unattended := by
  unfold ensured
  cases db.queues sid with
  | none => exact ⟨rfl, rfl⟩
  | some => exact ⟨rfl, rfl⟩

theorem revision_of_some (h : db.queues sid = some row) : db.revision sid = row.revision := by
  unfold revision ensured
  rw [h]
  rfl

theorem Effect.moves_of_bump {rows' : List ItemRow} (he : Effect sid db db' rows' (some row))
    (hrev : row.revision = db.revision sid + 1) : Moves sid db db' := by
  refine Moves.of_lt ?_
  rw [revision_of_some he.queue, hrev]
  exact Nat.lt_succ_self _

theorem Effect.moves_of_kept (he : Effect sid db db' (db.rows sid) (some row))
    (hpaused : row.paused = (ensured db sid now).paused)
    (hunattended : row.unattended = (ensured db sid now).unattended)
    (hrev : (ensured db sid now).revision ≤ row.revision) : Moves sid db db' := by
  have hrow : ensured db' sid 0 = row := by
    unfold ensured
    rw [he.queue]
    rfl
  refine Moves.of_eq ?_ ?_
  · rw [revision_of_some he.queue, ← ensured_revision now]
    exact hrev
  · unfold contents fetchItems
    rw [hrow, he.rows, hpaused, hunattended, ensured_flags.1, ensured_flags.2]

theorem commit_moves {α : Type} {r : AppResult (α × TaskQueueDb)}
    (hok : ∀ a db', r = .ok (a, db') → Moves sid db db') : Moves sid db (db.commit r) := by
  cases r with
  | error => exact Moves.of_frame rfl rfl
  | ok p => exact hok p.1 p.2 rfl

end

/-! ## the operations -/

def clears (sid : String) : QueueOp → Bool
  | .clearQueue sid' _ => sid' = sid
  | _ => false

/-- a clear of a queue that is claimed while other items wait in it -/
def ClearsBehindClaim (sid : String) (db : TaskQueueDb) (op : QueueOp) : Prop :=
  clears sid op = true ∧ db.activeToken sid ≠ none ∧ ∃ r ∈ db.rows sid, r.state ≠ .dispatching

section
variable {db db' : TaskQueueDb} {sid : String} {now : Int}

theorem ensured_active : (ensured db sid now).activeDispatchToken = db.activeToken sid := by
  unfold ensured activeToken
  cases db.queues sid with
  | none => rfl
  | some => rfl

theorem clearQueue_moves {s : TaskQueueSnapshot} (hok : db.clearQueue sid now = .ok (s, db'))
    (hclear : db.activeToken sid ≠ none → ∀ r ∈ db.rows sid, r.state = .dispatching) :
    Moves sid db db' := by
  obtain ⟨he, _⟩ := clearQueue_ok hok
  rw [ensured_active] at he
  by_cases hactive : db.activeToken sid = none
  · rw [if_pos hactive] at he
    exact he.moves_of_bump (congrArg (· + 1) (ensured_revision now))
  have hall : (db.rows sid).filter (fun r => !decide (r.state ≠ .dispatching)) = db.rows sid := by
    refine filter_eq_self.mpr fun r hr => ?_
    simpa using hclear hactive r hr
  rw [if_neg hactive, hall] at he
  exact he.moves_of_kept rfl rfl (Nat.le_refl _)

theorem clear_stays (now : Int) (hruntime : db.runtime.isSome) (hactive : db.activeToken sid ≠ none)
    {r : ItemRow} (hr : r ∈ db.rows sid) (hst : r.state ≠ .dispatching) :
    ((QueueOp.clearQueue sid now).apply db).contents sid ≠ db.contents sid ∧
      ((QueueOp.clearQueue sid now).apply db).revision sid = db.revision sid := by
  obtain ⟨s, db', hok⟩ : ∃ s db', db.clearQueue sid now = .ok (s, db') :=
    clearQueue_succeeds hruntime
  obtain ⟨he, _⟩ := clearQueue_ok hok
  rw [ensured_active, if_neg hactive] at he
  have happly : (QueueOp.clearQueue sid now).apply db = db' := by
    show db.commit (db.clearQueue sid now) = db'
    rw [hok]
    rfl
  rw [happly]
  refine ⟨fun hcontents => ?_, ?_⟩
  · have hlen := congrArg (fun c => c.items.length) hcontents
    simp only [contents, length_fetchItems, he.rows] at hlen
    have hmem := length_filter_eq_length_iff.mp hlen r hr
    simp [hst] at hmem
  · rw [revision_of_some he.queue, ensured_revision]

theorem finishClaim_moves {itemId token : String} {state : QueueItemState}
    {code message : Option String} {b : Bool}
    (hok : db.finishClaim sid itemId token state code message now = .ok (b, db')) :
    Moves sid db db' := by
  rcases finishClaim_ok hok with ⟨_, rfl, _⟩ | ⟨row, _, _, hq, _, he⟩
  · exact Moves.of_frame rfl rfl
  · exact he.moves_of_bump (congrArg (· + 1) (revision_of_some hq).symm)

theorem completeClaim_moves {itemId token : String} {b : Bool}
    (hok : db.completeClaim sid itemId token now = .ok (b, db')) : Moves sid db db' := by
  rcases completeClaim_ok hok with ⟨_, rfl, _⟩ | ⟨_, row, _, _, _, hq, _, he⟩
  · exact Moves.of_frame rfl rfl
  · exact he.moves_of_bump (congrArg (· + 1) (revision_of_some hq).symm)

theorem claimNext_moves {q : PromptQueue} (h : Represents db sid q) {generation : Nat}
    {token : String} {claim : Option TaskQueueClaim}
    (hok : db.claimNext sid generation token now = .ok (claim, db')) : Moves sid db db' := by
  rcases represents_claimNext h hok with ⟨_, hrows, hqueues⟩ | ⟨c, _, hclaim, _⟩
  · exact Moves.of_frame hrows hqueues
  rcases claimNext_ok hok with ⟨hnone, _⟩ | ⟨_, row, _, _, _, _, hq, _, _, he⟩
  · rw [hnone] at hclaim
    cases hclaim
  · exact he.moves_of_bump (congrArg (· + 1) (revision_of_some hq).symm)

theorem recoverInflight_moves {q : PromptQueue} (h : Represents db sid q) {n : Nat}
    (hok : db.recoverInflight now = .ok (n, db')) : Moves sid db db' := by
  by_cases hd : ∃ t, q.head = .dispatching t
  · obtain ⟨t, ht⟩ := hd
    obtain ⟨row, hq, hq'⟩ := recoverInflight_busy h hok ht
    refine Moves.of_lt ?_
    rw [revision_of_some hq, revision_of_some hq']
    exact Nat.lt_succ_self _
  · obtain ⟨hrows, hqueues⟩ := recoverInflight_idle h hok fun t ht => hd ⟨t, ht⟩
    exact Moves.of_frame hrows hqueues

end

theorem apply_moves_self {db : TaskQueueDb} {sid : String} {q : PromptQueue}
    (h : Represents db sid q) {op : QueueOp} (hop : operandOf op = some sid)
    (hclear : ¬ ClearsBehindClaim sid db op) : Moves sid db (op.apply db) := by
  cases op with
  | snapshot sid' =>
    cases hop
    refine commit_moves fun s db' hok => ?_
    exact (snapshot_ok hok).1.moves_of_kept rfl rfl (Nat.le_refl _)
  | addItem sid' draft id now =>
    cases hop
    refine commit_moves fun s db' hok => ?_
    obtain ⟨_, _, _, _, _, _, _, he, _⟩ := addItem_ok hok
    exact he.moves_of_bump (congrArg (· + 1) (ensured_revision now))
  | deleteItem sid' itemId now =>
    cases hop
    refine commit_moves fun s db' hok => ?_
    obtain ⟨_, _, _, he, _⟩ := deleteItem_ok hok
    exact he.moves_of_bump (congrArg (· + 1) (ensured_revision now))
  | clearQueue sid' =>
    cases hop
    refine commit_moves fun s db' hok => clearQueue_moves hok fun hactive r hr => ?_
    by_contra hst
    exact hclear ⟨decide_eq_true rfl, hactive, r, hr, hst⟩
  | updateControl sid' patch now =>
    cases hop
    refine commit_moves fun s db' hok => ?_
    obtain ⟨row, _, hrev, he, _⟩ := updateControl_ok hok
    exact he.moves_of_bump (congrArg (· + 1) (hrev.trans (ensured_revision now)))
  | retryItem sid' itemId now =>
    cases hop
    refine commit_moves fun s db' hok => ?_
    exact (retryItem_ok hok).2.1.moves_of_bump (congrArg (· + 1) (ensured_revision now))
  | setRuntimeStatus sid' =>
    cases hop
    refine commit_moves fun s db' hok => ?_
    obtain ⟨row, _, hpaused, hunattended, hrev, he, _⟩ := setRuntimeStatus_ok hok
    exact he.moves_of_kept hpaused hunattended hrev
  | claimNext sid' =>
    cases hop
    exact commit_moves fun claim db' hok => claimNext_moves h hok
  | completeClaim sid' =>
    cases hop
    exact commit_moves fun b db' hok => completeClaim_moves hok
  | returnClaimToQueue sid' itemId token now | failClaim sid' itemId token code message now
  | markDeliveryUnknown sid' =>
    cases hop
    exact commit_moves fun b db' hok => finishClaim_moves hok
  | setGlobalEnabled => cases hop
  | recoverInflight => cases hop

/-- **Every operation but a clear behind a claim gives new contents a new revision.** -/
theorem apply_moves {db : TaskQueueDb} (h : Represented db) (sid : String) (op : QueueOp)
    (hclear : ¬ ClearsBehindClaim sid db op) : Moves sid db (op.apply db) := by
  obtain ⟨q, hq⟩ := h sid
  cases hop : operandOf op with
  | some sid' =>
    by_cases hs : sid' = sid
    · subst hs
      exact apply_moves_self hq hop hclear
    · have ht := apply_frame db hop
      have hs' : sid ≠ sid' := fun heq => hs heq.symm
      exact Moves.of_frame (ht.rows sid hs') (ht.queues sid hs')
  | none =>
    cases op with
    | setGlobalEnabled enabled now =>
      refine commit_moves (r := db.setGlobalEnabled enabled now) fun r db' hok => ?_
      obtain ⟨hitems, hqueues⟩ := setGlobalEnabled_ok hok
      exact Moves.of_frame (congrArg _ hitems) (congrFun hqueues sid)
    | recoverInflight now =>
      refine commit_moves (r := db.recoverInflight now) fun n db' hok => ?_
      exact recoverInflight_moves hq hok
    | _ => cases hop

theorem apply_runtime (db : TaskQueueDb) (op : QueueOp) (h : db.runtime.isSome) :
    (op.apply db).runtime.isSome := by
  cases hop : operandOf op with
  | some => exact (apply_frame db hop).runtime h
  | none =>
    cases op with
    | setGlobalEnabled enabled now =>
      show (db.commit (db.setGlobalEnabled enabled now)).runtime.isSome
      cases hr : db.setGlobalEnabled enabled now with
      | error => exact h
      | ok =>
        obtain ⟨_, _, hok⟩ := bind_ok hr
        cases hok
        rfl
    | recoverInflight => exact h
    | _ => cases hop

end TaskQueueDb

/-! ## publication -/

def answer {α β : Type} : AppResult (α × β) → Option α
  | .ok (a, _) => some a
  | .error _ => none

def QueueOp.returned (db : TaskQueueDb) : QueueOp → Option TaskQueueSnapshot
  | snapshot sid => answer (db.snapshot sid)
  | addItem sid draft id now => answer (db.addItem sid draft id now)
  | deleteItem sid itemId now => answer (db.deleteItem sid itemId now)
  | clearQueue sid now => answer (db.clearQueue sid now)
  | updateControl sid patch now => answer (db.updateControl sid patch now)
  | retryItem sid itemId now => answer (db.retryItem sid itemId now)
  | setRuntimeStatus sid state reason now => answer (db.setRuntimeStatus sid state reason now)
  | _ => none

structure Publication where
  db : TaskQueueDb
  published : List TaskQueueSnapshot

namespace Publication

open TaskQueueDb

variable {s : TaskQueueSnapshot} {db : TaskQueueDb} {sid : String}

def init (start : Int) : Publication := ⟨TaskQueueDb.init start, []⟩

def step (p : Publication) (op : QueueOp) : Publication :=
  ⟨op.apply p.db, p.published ++ (op.returned p.db).toList⟩

theorem answer_readSnapshot {r : AppResult (TaskQueueSnapshot × TaskQueueDb)}
    (hok : ∀ s db', r = .ok (s, db') → db'.readSnapshot sid = .ok s) (h : answer r = some s) :
    (db.commit r).readSnapshot sid = .ok s := by
  cases r with
  | error => cases h
  | ok p =>
    obtain rfl : p.1 = s := some.inj h
    exact hok p.1 p.2 rfl

theorem returned_readSnapshot {op : QueueOp} (h : op.returned db = some s) :
    (op.apply db).readSnapshot s.sessionId = .ok s := by
  have hread : ∃ sid, (op.apply db).readSnapshot sid = .ok s := by
    cases op with
    | snapshot sid =>
      exact ⟨sid, answer_readSnapshot (fun _ _ hok => (snapshot_ok hok).2) h⟩
    | addItem sid =>
      refine ⟨sid, answer_readSnapshot (fun _ _ hok => ?_) h⟩
      obtain ⟨_, _, _, _, _, _, _, _, hs⟩ := addItem_ok hok
      exact hs
    | deleteItem sid =>
      refine ⟨sid, answer_readSnapshot (fun _ _ hok => ?_) h⟩
      obtain ⟨_, _, _, _, hs⟩ := deleteItem_ok hok
      exact hs
    | clearQueue sid =>
      exact ⟨sid, answer_readSnapshot (fun _ _ hok => (clearQueue_ok hok).2) h⟩
    | updateControl sid =>
      refine ⟨sid, answer_readSnapshot (fun _ _ hok => ?_) h⟩
      obtain ⟨_, _, _, _, hs⟩ := updateControl_ok hok
      exact hs
    | retryItem sid =>
      exact ⟨sid, answer_readSnapshot (fun _ _ hok => (retryItem_ok hok).2.2) h⟩
    | setRuntimeStatus sid =>
      refine ⟨sid, answer_readSnapshot (fun _ _ hok => ?_) h⟩
      obtain ⟨_, _, _, _, _, _, hs⟩ := setRuntimeStatus_ok hok
      exact hs
    | _ => cases h
  obtain ⟨sid, hs⟩ := hread
  obtain ⟨_, _, hsid, _⟩ := readSnapshot_ok hs
  rw [hsid]
  exact hs

def AgreesOn (sid : String) (p : Publication) : Prop :=
  Agrees TaskQueueSnapshot.revision TaskQueueSnapshot.contents (p.db.revision sid)
    (p.db.contents sid) (p.published.filter fun s => s.sessionId = sid)

theorem snapshot_of_db (h : db.readSnapshot sid = .ok s) :
    s.revision = db.revision sid ∧ s.contents = db.contents sid := by
  obtain ⟨row, hq, _, hitems, hpaused, hunattended, hrev⟩ := readSnapshot_ok h
  have hrow : ensured db sid 0 = row := by
    unfold ensured
    rw [hq]
    rfl
  refine ⟨hrev.trans (revision_of_some hq).symm, ?_⟩
  unfold TaskQueueSnapshot.contents TaskQueueDb.contents
  rw [hitems, hpaused, hunattended, hrow]

theorem agreesOn_step {p : Publication} {op : QueueOp} (h : AgreesOn sid p)
    (hm : Moves sid p.db (op.apply p.db)) : AgreesOn sid (step p op) := by
  have hmoved : Agrees TaskQueueSnapshot.revision TaskQueueSnapshot.contents
      ((op.apply p.db).revision sid) ((op.apply p.db).contents sid)
      (p.published.filter fun s => s.sessionId = sid) := h.advance hm.1 hm.2
  unfold AgreesOn step
  cases hret : op.returned p.db with
  | none =>
    rw [toList_none, append_nil]
    exact hmoved
  | some s =>
    have hread := returned_readSnapshot hret
    rw [toList_some, filter_append]
    by_cases hs : s.sessionId = sid
    · subst hs
      obtain ⟨hrev, hcon⟩ := snapshot_of_db hread
      rw [filter_cons_of_pos (by simp), filter_nil]
      exact hmoved.publish hrev hcon
    · rw [filter_cons_of_neg (by simpa using hs), filter_nil, append_nil]
      exact hmoved

end Publication

/-! ## convergence -/

namespace TaskQueueDb

def Versions (sid : String) (db : TaskQueueDb) (op : QueueOp) : Prop :=
  (op.apply db).contents sid ≠ db.contents sid → db.revision sid < (op.apply db).revision sid

instance (sid : String) (db : TaskQueueDb) (op : QueueOp) : Decidable (Versions sid db op) :=
  inferInstanceAs (Decidable (_ → _))

def Healthy (db : TaskQueueDb) : Prop := Represented db ∧ db.runtime.isSome

theorem apply_healthy (db : TaskQueueDb) (op : QueueOp) (h : Healthy db) : Healthy (op.apply db) :=
  ⟨apply_represented db op h.1, apply_runtime db op h.2⟩

theorem init_healthy (start : Int) : Healthy (init start) := ⟨init_represented start, rfl⟩

theorem versions_iff {db : TaskQueueDb} (h : Healthy db) (sid : String) (op : QueueOp) :
    Versions sid db op ↔ ¬ ClearsBehindClaim sid db op := by
  constructor
  · intro hv hclear
    cases op with
    | clearQueue sid' now =>
      obtain ⟨hsid, hactive, r, hr, hst⟩ := hclear
      obtain rfl : sid' = sid := of_decide_eq_true hsid
      obtain ⟨hne, heq⟩ := clear_stays now h.2 hactive hr hst
      have hlt := hv hne
      omega
    | _ => cases hclear.1
  · intro hclear
    exact (apply_moves h.1 sid op hclear).2

theorem agreesOn_run {start : Int} {ops : List QueueOp} {sid : String}
    (hok : Run.StepsOk QueueOp.apply (fun db op => ¬ ClearsBehindClaim sid db op) (init start)
      ops) :
    Publication.AgreesOn sid (Run.run Publication.step (Publication.init start) ops) := by
  have hsteps : Run.StepsOk Publication.step (fun p op => ¬ ClearsBehindClaim sid p.db op)
      (Publication.init start) ops :=
    (Run.stepsOk_map (f := Publication.db) (fun _ _ => rfl)
      (fun db op => ¬ ClearsBehindClaim sid db op) _ ops).mpr hok
  have hinit : Publication.AgreesOn sid (Publication.init start) := Agrees.nil _ _
  have halong := Run.along_of_inv (I := fun p => Healthy p.db ∧ Publication.AgreesOn sid p)
    (fun p op hp hclear => ⟨apply_healthy p.db op hp.1,
      Publication.agreesOn_step hp.2 (apply_moves hp.1.1 sid op hclear)⟩)
    ⟨init_healthy start, hinit⟩ hsteps
  exact halong.last.2

/-- **Snapshots converge exactly without a clear behind a claim**: in a run without one, new
contents always have a new revision, and once a snapshot of the last revision is out, a store that
receives the snapshots of the run in any order, any number of times, shows the last contents. -/
theorem snapshots_converge (start : Int) (ops : List QueueOp) (sid : String) :
    (Run.StepsOk QueueOp.apply (Versions sid) (init start) ops ↔
      Run.StepsOk QueueOp.apply (fun db op => ¬ ClearsBehindClaim sid db op) (init start) ops) ∧
    (Run.StepsOk QueueOp.apply (fun db op => ¬ ClearsBehindClaim sid db op) (init start) ops →
      let p := Run.run Publication.step (Publication.init start) ops
      ∀ delivered, (∀ s, s ∈ delivered ↔ s ∈ p.published) →
        (∃ s ∈ p.published, s.sessionId = sid ∧ s.revision = p.db.revision sid) →
        ∃ s, (TaskQueueStore.receive delivered).snapshots sid = some s ∧
          s.contents = p.db.contents sid) := by
  refine ⟨Run.stepsOk_congr apply_healthy (fun db op h => versions_iff h sid op)
    (init_healthy start), ?_⟩
  intro hok p delivered hsame hlast
  have hagrees : Publication.AgreesOn sid p := agreesOn_run hok
  rw [TaskQueueStore.receive, TaskQueueStore.receive_snapshots]
  refine hagrees.converges (fun s => ?_) ?_
  · rw [mem_filter, mem_filter, hsame]
  · obtain ⟨s, hs, hsid, hrev⟩ := hlast
    exact ⟨s, mem_filter.mpr ⟨hs, decide_eq_true hsid⟩, hrev⟩

/-- two prompts wait, the first is claimed, a snapshot is taken, and the queue is cleared -/
def clearedBehindClaim : List QueueOp :=
  [.addItem "pty-1" ⟨"first", []⟩ "item-1" 1, .addItem "pty-1" ⟨"second", []⟩ "item-2" 2,
    .claimNext "pty-1" 0 "token-1" 3, .snapshot "pty-1", .clearQueue "pty-1" 4]

/-- the snapshots arrive in the opposite order, and the cleared item is shown for good -/
theorem clearedBehindClaim_diverges :
    let p := Run.run Publication.step (Publication.init 0) clearedBehindClaim
    let delivered := p.published.reverse
    ¬ Run.StepsOk QueueOp.apply (Versions "pty-1") (init 0) clearedBehindClaim ∧
      (∀ s, s ∈ delivered ↔ s ∈ p.published) ∧
      (∃ s ∈ p.published, s.sessionId = "pty-1" ∧ s.revision = p.db.revision "pty-1") ∧
      ((TaskQueueStore.receive delivered).snapshots "pty-1").map (·.items.map (·.id)) =
        some ["item-1", "item-2"] ∧
      (p.db.contents "pty-1").items.map (·.id) = ["item-1"] :=
  ⟨by decide +kernel, fun _ => mem_reverse, by decide +kernel, by decide +kernel,
    by decide +kernel⟩

end TaskQueueDb
end CcPanes

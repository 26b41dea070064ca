import CcPanes.TaskQueue.Dispatcher
import CcPanes.TaskQueue.QueueInvariant
import Mathlib.Data.Fintype.Basic

/-!
# The dispatcher delivers once and in order

For every session the world of the dispatcher is a `PromptDelivery`: the queue its tables represent,
the log of its history and the stages of its executions.  What happens in the world is a step of it
or nothing, as long as crash recovery finds no execution that may still submit.  The worker sees to
that: it recovers when it starts, before it has a dispatcher.
-/

set_option linter.unusedSectionVars false

namespace CcPanes

open ArrivalOrder Interleaving PromptDelivery PromptQueue TaskQueueDb Option Function List

def TaskQueueClaim.ticket (c : TaskQueueClaim) : Ticket := ⟨c.item.id, c.token⟩

def DispatchPc.stage : DispatchPc → Stage
  | runtimeBlocker c | secondReadiness c | effectivePrompt c | secondBlocker c _
  | submitReadiness c _ | submitText c _ => .unsent c.ticket
  | submitting c _ => .sending c.ticket
  | requeueClaim c _ => .withdrawing c.ticket
  | markSubmitStarted c | completeSnapshot c | completeClaim c | failClaim c _
  | markDeliveryUnknown c _ => .settling c.ticket
  | _ => .idle

def sessionLog (sid : String) (history : List (String × Entry)) : List Entry :=
  (history.filter fun e => e.1 = sid).map Prod.snd

theorem sessionLog_self (sid : String) (history : List (String × Entry)) (e : Entry) :
    sessionLog sid (history ++ [(sid, e)]) = sessionLog sid history ++ [e] := by
  unfold sessionLog
  rw [filter_append, filter_cons_of_pos (by simp), map_append]
  rfl

theorem sessionLog_other {sid sid' : String} (h : sid' ≠ sid) (history : List (String × Entry))
    (e : Entry) : sessionLog sid (history ++ [(sid', e)]) = sessionLog sid history := by
  unfold sessionLog
  rw [filter_append, filter_cons_of_neg (by simpa using h), filter_nil,
    append_nil]

/-! ## one step of an execution -/

structure Keeps (sid : String) (db db' : TaskQueueDb) : Prop where
  frame : TouchesOnly sid db db'
  represents : ∀ q, Represents db sid q → Represents db' sid q

section
variable {sid : String} {db db' : TaskQueueDb} {now : Int}

theorem Keeps.refl (sid : String) (db : TaskQueueDb) : Keeps sid db db :=
  ⟨TouchesOnly.refl sid db, fun _ h => h⟩

theorem keeps_snapshot {s : TaskQueueSnapshot} (hok : db.snapshot sid = .ok (s, db')) :
    Keeps sid db db' :=
  ⟨(snapshot_ok hok).1.frame, fun _ h => represents_snapshot h hok⟩

theorem keeps_persistReadiness {readiness : TaskQueueReadiness} {u : Unit}
    (hok : persistReadiness db sid readiness now = .ok (u, db')) : Keeps sid db db' := by
  unfold persistReadiness at hok
  split at hok
  · obtain ⟨_, rfl⟩ := Prod.mk.inj (Except.ok.inj hok)
    exact Keeps.refl sid db
  obtain ⟨⟨s, db₁⟩, hset, hok⟩ := bind_ok hok
  obtain ⟨_, rfl⟩ := Prod.mk.inj (Except.ok.inj hok)
  obtain ⟨_, _, _, _, _, he, _⟩ := setRuntimeStatus_ok hset
  exact ⟨he.frame, fun _ h => represents_setRuntimeStatus h hset⟩

theorem keeps_claimNext {generation : Nat} {token : String}
    (hok : db.claimNext sid generation token now = .ok (none, db')) : Keeps sid db db' := by
  refine ⟨claimNext_frame hok, fun q h => ?_⟩
  rcases represents_claimNext h hok with ⟨_, hrows, hqueues⟩ | ⟨_, _, habsurd, _⟩
  · exact h.frame hrows hqueues
  · cases habsurd

theorem keeps_completeClaim {itemId token : String}
    (hok : db.completeClaim sid itemId token now = .ok (false, db')) : Keeps sid db db' := by
  rcases completeClaim_ok hok with ⟨_, rfl, _⟩ | ⟨_, _, habsurd, _⟩
  · exact Keeps.refl sid db'
  · cases habsurd

theorem keeps_finishClaim {itemId token : String} {state : QueueItemState}
    {code message : Option String}
    (hok : db.finishClaim sid itemId token state code message now = .ok (false, db')) :
    Keeps sid db db' := by
  rcases finishClaim_ok hok with ⟨_, rfl, _⟩ | ⟨_, habsurd, _⟩
  · exact Keeps.refl sid db'
  · cases habsurd

end

/-- what one step of an execution does to the shared state and to its stage -/
inductive Transition (call : CheckSession) (s : DispatchShared) (p : DispatchPc) :
    DispatchShared → DispatchPc → Prop
  | quiet (db' : TaskQueueDb) (used' : List String) (p' : DispatchPc)
      (hdb : Keeps call.sessionId s.db db') (hused : ∀ u ∈ s.used, u ∈ used')
      (hp : p'.stage = p.stage ∨ p.stage.Demotes p'.stage) :
      Transition call s p ⟨db', used', s.history⟩ p'
  | claim (db' : TaskQueueDb) (p' : DispatchPc) (c : TaskQueueClaim) (generation : Nat)
      (token : String) (htoken : token ∉ s.used)
      (hok : s.db.claimNext call.sessionId generation token call.now = .ok (some c, db'))
      (hp' : p'.stage = .unsent c.ticket) :
      Transition call s p ⟨db', token :: s.used, s.history⟩ p'
  | submit (p' : DispatchPc) (t : Ticket) (hp : p.stage = .unsent t) (hp' : p'.stage = .sending t) :
      Transition call s p ⟨s.db, s.used, s.history ++ [(call.sessionId, .submitted t.item)]⟩ p'
  | complete (db' : TaskQueueDb) (p' : DispatchPc) (t : Ticket)
      (hok : s.db.completeClaim call.sessionId t.item t.token call.now = .ok (true, db'))
      (hp : p.stage = .settling t) (hp' : p'.stage = .idle) :
      Transition call s p ⟨db', s.used, s.history⟩ p'
  | fail (db' : TaskQueueDb) (p' : DispatchPc) (t : Ticket) (phase : HeadPhase)
      (hphase : phase = .failed ∨ phase = .deliveryUnknown) (code message : Option String)
      (hok : s.db.finishClaim call.sessionId t.item t.token phase.state code message call.now =
        .ok (true, db'))
      (hp : p.stage = .settling t) (hp' : p'.stage = .idle) :
      Transition call s p ⟨db', s.used, s.history⟩ p'
  | requeue (db' : TaskQueueDb) (p' : DispatchPc) (t : Ticket)
      (hok : s.db.returnClaimToQueue call.sessionId t.item t.token call.now = .ok (true, db'))
      (hp : p.stage = .withdrawing t) (hp' : p'.stage = .idle) :
      Transition call s p ⟨db', s.used, s.history⟩ p'

section
variable {call : CheckSession} {s s₁ : DispatchShared} {p p' : DispatchPc}

theorem Transition.read (hp : p'.stage = p.stage ∨ p.stage.Demotes p'.stage) :
    Transition call s p s p' :=
  .quiet s.db s.used p' (Keeps.refl _ _) (fun _ hu => hu) hp

theorem Transition.stop (e : AppError) : Transition call s p s (.done (.error e)) :=
  .read (.inr (Stage.demotes_idle _))

theorem Transition.proceed {α : Type} {r : AppResult α} {next : α → DispatchPc}
    (h : ∀ a, Transition call s p s (next a)) : Transition call s p s (proceed r next) := by
  cases r with
  | error e => exact Transition.stop e
  | ok a => exact h a

theorem Transition.transact {α : Type} {r : AppResult (α × TaskQueueDb)} {next : α → DispatchPc}
    (herr : ∀ e, Transition call s p s₁ (.done (.error e)))
    (hok : ∀ a db', r = .ok (a, db') → Transition call s p { s₁ with db := db' } (next a)) :
    Transition call s p (s₁.transact r next).1 (s₁.transact r next).2 := by
  cases r with
  | error e => exact herr e
  | ok v => exact hok v.1 v.2 rfl

theorem Transition.keep {db' : TaskQueueDb} (hdb : Keeps call.sessionId s.db db')
    (hp : p'.stage = p.stage ∨ p.stage.Demotes p'.stage) :
    Transition call s p { s with db := db' } p' :=
  .quiet db' s.used p' hdb (fun _ hu => hu) hp

theorem blocker_transition {c : TaskQueueClaim} {readiness : TaskQueueReadiness}
    (hp : p.stage = .unsent c.ticket) (next : DispatchPc) (hnext : next.stage = .unsent c.ticket) :
    Transition call s p s (if readiness ≠ .ready then .requeueClaim c readiness else next) := by
  split
  · refine .read (.inr ?_)
    rw [hp]
    exact Stage.demotes_withdrawing c.ticket
  · exact .read (.inl (hnext.trans hp.symm))

theorem checkSession_transition (call : CheckSession) (a : Answers) (s : DispatchShared)
    (p : DispatchPc) :
    Transition call s p (checkSession call a s p).1 (checkSession call a s p).2 := by
  cases p with
  | runtime =>
    refine .proceed fun runtime => ?_
    split
    · exact .read (.inl rfl)
    · exact .read (.inl rfl)
  | snapshot =>
    refine .transact Transition.stop fun snapshot db' hok => ?_
    refine .keep (keeps_snapshot hok) (.inl ?_)
    split
    · rfl
    · split <;> rfl
  | readiness =>
    refine .proceed fun readiness => .read (.inl ?_)
    split <;> rfl
  | persistBlocked | persistRequeued =>
    refine .transact Transition.stop fun u db' hok => ?_
    exact .keep (keeps_persistReadiness hok) (.inl rfl)
  | claimNext generation =>
    simp only [checkSession]
    split
    · exact .read (.inl rfl)
    next htoken =>
    refine .transact (fun e => ?_) fun claim db' hok => ?_
    · exact .quiet s.db _ _ (Keeps.refl _ _) (fun u hu => mem_cons_of_mem _ hu) (.inl rfl)
    cases claim with
    | none =>
      exact .quiet db' _ _ (keeps_claimNext hok) (fun u hu => mem_cons_of_mem _ hu)
        (.inl rfl)
    | some c => exact .claim db' _ c generation a.uuid htoken hok rfl
  | runtimeBlocker =>
    refine .proceed fun blocker => ?_
    cases blocker with
    | none => exact .read (.inl rfl)
    | some => exact blocker_transition rfl _ rfl
  | secondReadiness => exact .proceed fun readiness => blocker_transition rfl _ rfl
  | effectivePrompt =>
    simp only [checkSession]
    split
    · exact .read (.inl rfl)
    · exact .read (.inr (Stage.demotes_settling rfl))
  | secondBlocker c =>
    refine .proceed fun blocker => ?_
    cases blocker with
    | none => exact .read (.inl rfl)
    | some => exact .read (.inr (Stage.demotes_withdrawing c.ticket))
  | submitReadiness =>
    simp only [checkSession]
    split
    · exact .read (.inr (Stage.demotes_settling rfl))
    · exact blocker_transition rfl _ rfl
  | submitText c => exact .submit _ c.ticket rfl rfl
  | submitting =>
    simp only [checkSession]
    split
    · exact .read (.inr (Stage.demotes_settling rfl))
    · exact .read (.inr (Stage.demotes_settling rfl))
  | markSubmitStarted => exact .read (.inl rfl)
  | completeSnapshot =>
    refine .transact Transition.stop fun snapshot db' hok => ?_
    exact .keep (keeps_snapshot hok) (.inl rfl)
  | completeClaim c =>
    refine .transact Transition.stop fun completed db' hok => ?_
    cases completed with
    | true => exact .complete db' _ c.ticket hok rfl rfl
    | false => exact .keep (keeps_completeClaim hok) (.inr (Stage.demotes_idle _))
  | requeueClaim c =>
    refine .transact Transition.stop fun returned db' hok => ?_
    cases returned with
    | true => exact .requeue db' _ c.ticket hok rfl rfl
    | false => exact .keep (keeps_finishClaim hok) (.inr (Stage.demotes_idle _))
  | failClaim c =>
    refine .transact Transition.stop fun failed db' hok => ?_
    cases failed with
    | true => exact .fail db' _ c.ticket .failed (.inl rfl) _ _ hok rfl rfl
    | false => exact .keep (keeps_finishClaim hok) (.inr (Stage.demotes_idle _))
  | markDeliveryUnknown c =>
    refine .transact Transition.stop fun marked db' hok => ?_
    cases marked with
    | true => exact .fail db' _ c.ticket .deliveryUnknown (.inr rfl) _ _ hok rfl rfl
    | false => exact .keep (keeps_finishClaim hok) (.inr (Stage.demotes_idle _))
  | done => exact .read (.inl rfl)

end

/-! ## the world -/

variable {ι : Type} [DecidableEq ι] {calls : ι → CheckSession}

def stages (calls : ι → CheckSession) (sid : String) (pc : ι → DispatchPc) (i : ι) : Stage :=
  if (calls i).sessionId = sid then (pc i).stage else .idle

def deliveryOf (calls : ι → CheckSession) (sid : String) (w : DispatchWorld ι) (q : PromptQueue) :
    PromptDelivery ι :=
  ⟨q, sessionLog sid w.shared.history, w.shared.used, stages calls sid w.pc⟩

def InOrder (calls : ι → CheckSession) (w : DispatchWorld ι) : Prop :=
  ∀ sid, ∃ q, Represents w.shared.db sid q ∧ (deliveryOf calls sid w q).Orderly

theorem inOrder_init (start : Int) : InOrder calls (dispatchInit start) := by
  intro sid
  refine ⟨PromptQueue.empty, ⟨rfl, rfl⟩, ?_, ?_, ?_⟩
  · have hidle : ∀ i, stages calls sid (fun _ => .runtime) i = .idle := by
      intro i
      unfold stages
      split <;> rfl
    refine ⟨fun i t hi => ?_, fun i _ t _ hi => ?_, fun i t hi => ?_⟩
    all_goals
      have hi' := (congrArg _ (hidle i)).symm.trans hi
      cases hi'
  · exact ⟨nofun, nodup_nil, List.Sublist.slnil,
      nofun, List.Pairwise.nil, nofun⟩
  · exact ⟨fun _ _ _ _ => rfl, fun _ _ _ => rfl, trivial⟩

theorem stages_update_self {sid : String} {i : ι} (hi : (calls i).sessionId = sid)
    (pc : ι → DispatchPc) (p' : DispatchPc) :
    stages calls sid (Function.update pc i p') =
      Function.update (stages calls sid pc) i p'.stage := by
  funext j
  by_cases hj : j = i
  · subst hj
    rw [update_self, stages, if_pos hi, update_self]
  · rw [update_of_ne hj, stages, update_of_ne hj, stages]

theorem stages_update_other {sid : String} {i : ι} (hi : (calls i).sessionId ≠ sid)
    (pc : ι → DispatchPc) (p' : DispatchPc) :
    stages calls sid (Function.update pc i p') = stages calls sid pc := by
  funext j
  by_cases hj : j = i
  · subst hj
    rw [stages, stages, if_neg hi, if_neg hi]
  · rw [stages, stages, update_of_ne hj]

section
variable {w : DispatchWorld ι} {s' : DispatchShared} {pc' : ι → DispatchPc} {sid : String}

theorem InOrder.of_session (h : InOrder calls w) (hframe : TouchesOnly sid w.shared.db s'.db)
    (hused : ∀ u ∈ w.shared.used, u ∈ s'.used)
    (hlog : ∀ sid', sid' ≠ sid → sessionLog sid' s'.history = sessionLog sid' w.shared.history)
    (hpc : ∀ sid', sid' ≠ sid → stages calls sid' pc' = stages calls sid' w.pc)
    (hown : ∃ q, Represents s'.db sid q ∧ (deliveryOf calls sid ⟨s', pc'⟩ q).Orderly) :
    InOrder calls ⟨s', pc'⟩ := by
  intro sid'
  by_cases hs : sid' = sid
  · subst hs
    exact hown
  obtain ⟨q, hq, hd⟩ := h sid'
  refine ⟨q, hq.frame (hframe.rows sid' hs) (hframe.queues sid' hs), ?_⟩
  unfold deliveryOf
  rw [hlog sid' hs, hpc sid' hs]
  exact (Step.mint s'.used hused).orderly hd

theorem Transition.orderly {call : CheckSession} {s : DispatchShared} {p p' : DispatchPc}
    (ht : Transition call s p s' p') {q : PromptQueue} (hq : Represents s.db call.sessionId q)
    {stage : ι → Stage} {i : ι} (hi : stage i = p.stage)
    (hd : Orderly ⟨q, sessionLog call.sessionId s.history, s.used, stage⟩) :
    ∃ q', Represents s'.db call.sessionId q' ∧
      Orderly ⟨q', sessionLog call.sessionId s'.history, s'.used,
        Function.update stage i p'.stage⟩ := by
  cases ht with
  | quiet db' used' _ hdb hused hp =>
    refine ⟨q, hdb.represents q hq, ?_⟩
    have hmint := (Step.mint used' hused).orderly hd
    rcases hp with hp | hp
    · rw [hp, ← hi, update_eq_self]
      exact hmint
    · rw [← hi] at hp
      exact (Step.demote i p'.stage hp).orderly hmint
  | claim db' _ c generation token htoken hok hp' =>
    rcases represents_claimNext hq hok with
      ⟨habsurd, _⟩ | ⟨c', row, hc, rfl, hid, _, hhead, hqueued, hq'⟩
    · cases habsurd
    cases hc
    have hitem : q.isHead c.item.id := by
      rw [hid]
      exact hhead
    rw [hp']
    exact ⟨_, hq', (Step.claim i c.ticket hitem hqueued htoken).orderly hd⟩
  | submit _ t hp hp' =>
    refine ⟨q, hq, ?_⟩
    rw [sessionLog_self, hp']
    exact (Step.submit i t (hi.trans hp)).orderly hd
  | complete db' _ t hok hp hp' =>
    rcases represents_completeClaim hq hok with ⟨habsurd, _⟩ | ⟨_, hhead, htoken, hq'⟩
    · cases habsurd
    · rw [hp']
      exact ⟨_, hq', (Step.complete i t (hi.trans hp) ⟨hhead, htoken⟩).orderly hd⟩
  | fail db' _ t phase hphase code message hok hp hp' =>
    have hnone : phase.token = none := by
      rcases hphase with rfl | rfl <;> rfl
    rcases represents_finishClaim hq hnone hok with ⟨habsurd, _⟩ | ⟨_, hhead, htoken, hq'⟩
    · cases habsurd
    · rw [hp']
      exact ⟨_, hq', (Step.fail i t (hi.trans hp) ⟨hhead, htoken⟩ phase hphase).orderly hd⟩
  | requeue db' _ t hok hp hp' =>
    have hnone : HeadPhase.queued.token = none := rfl
    rcases represents_finishClaim hq hnone hok with ⟨habsurd, _⟩ | ⟨_, hhead, htoken, hq'⟩
    · cases habsurd
    · rw [hp']
      exact ⟨_, hq', (Step.requeue i t (hi.trans hp) ⟨hhead, htoken⟩).orderly hd⟩

theorem Transition.frame {call : CheckSession} {s : DispatchShared} {p p' : DispatchPc}
    (ht : Transition call s p s' p') :
    TouchesOnly call.sessionId s.db s'.db ∧ (∀ u ∈ s.used, u ∈ s'.used) ∧
      ∀ sid, sid ≠ call.sessionId → sessionLog sid s'.history = sessionLog sid s.history := by
  have hsame : ∀ u ∈ s.used, u ∈ s.used := fun _ hu => hu
  cases ht with
  | quiet db' used' _ hdb hused _ => exact ⟨hdb.frame, hused, fun _ _ => rfl⟩
  | claim db' _ c generation token _ hok _ =>
    exact ⟨claimNext_frame hok, fun _ hu => mem_cons_of_mem token hu, fun _ _ => rfl⟩
  | submit _ t _ _ =>
    exact ⟨TouchesOnly.refl _ _, hsame, fun sid hs => sessionLog_other hs.symm _ _⟩
  | complete db' _ t hok _ _ => exact ⟨completeClaim_frame hok, hsame, fun _ _ => rfl⟩
  | fail db' _ t phase _ code message hok _ _ =>
    exact ⟨finishClaim_frame hok, hsame, fun _ _ => rfl⟩
  | requeue db' _ t hok _ _ => exact ⟨finishClaim_frame hok, hsame, fun _ _ => rfl⟩

theorem inOrder_move (h : InOrder calls w) {i : ι} {p' : DispatchPc}
    (ht : Transition (calls i) w.shared (w.pc i) s' p') :
    InOrder calls ⟨s', Function.update w.pc i p'⟩ := by
  obtain ⟨hframe, hused, hlog⟩ := ht.frame
  refine h.of_session hframe hused hlog (fun sid hs => stages_update_other hs.symm w.pc p') ?_
  obtain ⟨q, hq, hd⟩ := h (calls i).sessionId
  obtain ⟨q', hq', hd'⟩ := ht.orderly (i := i) hq (if_pos rfl) hd
  refine ⟨q', hq', ?_⟩
  unfold deliveryOf
  rw [stages_update_self rfl]
  exact hd'

theorem InOrder.mint (h : InOrder calls w) (used' : List String)
    (hused : ∀ u ∈ w.shared.used, u ∈ used') :
    InOrder calls ⟨{ w.shared with used := used' }, w.pc⟩ := by
  intro sid
  obtain ⟨q, hq, hd⟩ := h sid
  exact ⟨q, hq, (Step.mint used' hused).orderly hd⟩

theorem InOrder.perform (h : InOrder calls w) {db' : TaskQueueDb}
    (hframe : TouchesOnly sid w.shared.db db')
    (hown : ∀ q, Represents w.shared.db sid q → (deliveryOf calls sid w q).Orderly →
      ∃ q', Represents db' sid q' ∧
        (deliveryOf calls sid ⟨{ w.shared with db := db' }, w.pc⟩ q').Orderly) :
    InOrder calls ⟨{ w.shared with db := db' }, w.pc⟩ := by
  refine h.of_session hframe (fun _ hu => hu) (fun _ _ => rfl) (fun _ _ => rfl) ?_
  obtain ⟨q, hq, hd⟩ := h sid
  exact hown q hq hd

theorem InOrder.keep (h : InOrder calls w) {db' : TaskQueueDb}
    (hdb : Keeps sid w.shared.db db') : InOrder calls ⟨{ w.shared with db := db' }, w.pc⟩ :=
  h.perform hdb.frame fun q hq hd => ⟨q, hdb.represents q hq, hd⟩

theorem inOrder_perform (h : InOrder calls w) {α : Type} {r : AppResult (α × TaskQueueDb)}
    {entry : Option (String × Entry)}
    (hok : ∀ a db', r = .ok (a, db') → InOrder calls
      ⟨{ w.shared with db := db', history := w.shared.history ++ entry.toList }, w.pc⟩) :
    InOrder calls ⟨w.shared.perform r entry, w.pc⟩ := by
  cases r with
  | error => exact h
  | ok v => exact hok v.1 v.2 rfl

theorem inOrder_userStep (h : InOrder calls w) (op : UserOp) :
    InOrder calls ⟨userStep w.shared op, w.pc⟩ := by
  cases op with
  | snapshot =>
    refine inOrder_perform h fun s db' hok => ?_
    simp only [toList_none, append_nil]
    exact h.keep (keeps_snapshot hok)
  | addItem sid draft id =>
    simp only [userStep]
    split
    · exact h
    next hid =>
    have hmint := h.mint (id :: w.shared.used) fun u hu => mem_cons_of_mem id hu
    refine inOrder_perform hmint fun s db' hok => ?_
    obtain ⟨_, _, _, _, _, _, _, he, _⟩ := addItem_ok hok
    refine h.of_session he.frame (fun u hu => mem_cons_of_mem id hu)
      (fun sid' hs => sessionLog_other hs.symm _ _) (fun _ _ => rfl) ?_
    obtain ⟨q, hq, hd⟩ := h sid
    obtain ⟨_, hlen, hq'⟩ := represents_addItem hq hok
    refine ⟨q.add id, hq', ?_⟩
    unfold deliveryOf
    rw [toList_some, sessionLog_self]
    exact (Step.add id hid hlen).orderly hd
  | deleteItem sid itemId =>
    refine inOrder_perform h fun s db' hok => ?_
    simp only [toList_none, append_nil]
    obtain ⟨_, _, _, he, _⟩ := deleteItem_ok hok
    refine h.perform he.frame fun q hq hd => ?_
    obtain ⟨hfree, hq'⟩ := represents_deleteItem hq hok
    refine ⟨q.remove itemId, hq', (Step.leave _ (shrinks_remove q itemId) ?_).orderly hd⟩
    by_cases hhead : q.isHead itemId
    · exact .inr fun t => hfree t hhead
    · exact .inl (if_neg hhead)
  | clearQueue =>
    refine inOrder_perform h fun s db' hok => ?_
    simp only [toList_none, append_nil]
    refine h.perform (clearQueue_ok hok).1.frame fun q hq hd => ?_
    refine ⟨q.clear, represents_clearQueue hq hok, (Step.leave _ (shrinks_clear q) ?_).orderly hd⟩
    by_cases hdisp : ∃ t, q.head = .dispatching t
    · obtain ⟨t, ht⟩ := hdisp
      exact .inl ((clear_of_dispatching ht).2.trans ht.symm)
    · exact .inr fun t ht => hdisp ⟨t, ht⟩
  | updateControl =>
    refine inOrder_perform h fun s db' hok => ?_
    simp only [toList_none, append_nil]
    obtain ⟨_, _, _, he, _⟩ := updateControl_ok hok
    exact h.keep ⟨he.frame, fun q hq => represents_updateControl hq hok⟩
  | retryItem sid itemId =>
    refine inOrder_perform h fun s db' hok => ?_
    refine h.of_session (retryItem_ok hok).2.1.frame (fun _ hu => hu)
      (fun sid' hs => sessionLog_other hs.symm _ _) (fun _ _ => rfl) ?_
    obtain ⟨q, hq, hd⟩ := h sid
    obtain ⟨hhead, hphase, hq'⟩ := represents_retryItem hq hok
    refine ⟨q.setHead .queued, hq', ?_⟩
    unfold deliveryOf
    rw [toList_some, sessionLog_self]
    exact (Step.retry itemId hhead hphase).orderly hd
  | setGlobalEnabled =>
    refine inOrder_perform h fun r db' hok => ?_
    simp only [toList_none, append_nil]
    obtain ⟨hitems, hqueues⟩ := setGlobalEnabled_ok hok
    intro sid
    obtain ⟨q, hq, hd⟩ := h sid
    exact ⟨q, hq.frame (congrArg _ hitems) (congrFun hqueues sid), hd⟩

end

/-! ## runs -/

/-- no execution may still submit, nor is submitting: none is between the claim it got and the
answer of the submit -/
def AtRest (w : DispatchWorld ι) : Prop := ∀ i, (w.pc i).stage.active = none

def RecoversAtRest (w : DispatchWorld ι) : DispatchAction ι → Prop
  | .recoverInflight _ => AtRest w
  | _ => True

instance [Fintype ι] (w : DispatchWorld ι) : Decidable (AtRest w) :=
  inferInstanceAs (Decidable (∀ i, (w.pc i).stage.active = none))

instance [Fintype ι] (w : DispatchWorld ι) :
    (action : DispatchAction ι) → Decidable (RecoversAtRest w action)
  | .recoverInflight _ => inferInstanceAs (Decidable (AtRest w))
  | .user _ => .isTrue trivial
  | .advance _ _ => .isTrue trivial
  | .abort _ _ => .isTrue trivial

/-- **Every step keeps every session in order**, if crash recovery finds the executions at rest. -/
theorem inOrder_step (w : DispatchWorld ι) (action : DispatchAction ι) (h : InOrder calls w)
    (hrest : RecoversAtRest w action) : InOrder calls (dispatchStep calls w action) := by
  cases action with
  | user op => exact inOrder_userStep h op
  | advance i a => exact inOrder_move h (checkSession_transition (calls i) a w.shared (w.pc i))
  | abort i error => exact inOrder_move h (Transition.stop error)
  | recoverInflight =>
    refine inOrder_perform h fun n db' hok => ?_
    simp only [toList_none, append_nil]
    intro sid
    obtain ⟨q, hq, hd⟩ := h sid
    refine ⟨q.recover, represents_recoverInflight hq hok, (Step.recover fun i => ?_).orderly hd⟩
    show (stages calls sid w.pc i).active = none
    unfold stages
    split
    · exact hrest i
    · rfl

def DispatchPc.isSubmitting : DispatchPc → Bool
  | submitting _ _ => true
  | _ => false

theorem active_of_isSubmitting {p : DispatchPc} (h : p.isSubmitting = true) :
    ∃ t, p.stage.active = some t := by
  cases p with
  | submitting c => exact ⟨c.ticket, rfl⟩
  | _ => cases h

/-- **Prompts are delivered once and in order**: in every run whose crash recoveries find the
executions at rest, a prompt is submitted at most once since it was last retried, two executions
never submit to one session at a time, and the prompts of a session are submitted in the order in
which they were added. -/
theorem delivered_once_in_order (calls : ι → CheckSession) (start : Int)
    (actions : List (DispatchAction ι))
    (hrest : Run.StepsOk (dispatchStep calls) RecoversAtRest (dispatchInit start) actions)
    (sid : String) :
    let w := Run.run (dispatchStep calls) (dispatchInit start) actions
    let log := sessionLog sid w.shared.history
    Run.Every MaySubmit log ∧
    (∀ i j, (calls i).sessionId = sid → (calls j).sessionId = sid →
      (w.pc i).isSubmitting → (w.pc j).isSubmitting → i = j) ∧
    (∀ id ∈ submittedIn log, id ∈ addedIn log) ∧
    (submittedIn log).Pairwise (Before (addedIn log)) := by
  intro w log
  have halong := Run.along_of_inv (I := InOrder calls) inOrder_step (inOrder_init start) hrest
  obtain ⟨q, _, hd⟩ := halong.last sid
  refine ⟨hd.unsent.once, fun i j hi hj hsi hsj => ?_, hd.inLine.known, hd.inLine.order⟩
  obtain ⟨t, ht⟩ := active_of_isSubmitting hsi
  obtain ⟨t', ht'⟩ := active_of_isSubmitting hsj
  have hstage : ∀ k, (calls k).sessionId = sid → stages calls sid w.pc k = (w.pc k).stage :=
    fun k hk => if_pos hk
  have hactive : (stages calls sid w.pc i).active = some t := by
    rw [hstage i hi]
    exact ht
  have hactive' : (stages calls sid w.pc j).active = some t' := by
    rw [hstage j hj]
    exact ht'
  exact hd.single hactive hactive'

def idleAnswers (uuid : String) : Answers :=
  ⟨.ok (some .idle), .ok .exclusiveInProcess, .ok [], uuid, .ok ()⟩

def twoChecks (_ : Bool) : CheckSession := ⟨"pty-1", 9⟩

/-- an execution dies with its claim; after recovery and a retry another one delivers the prompt -/
def crashedDispatch : List (DispatchAction Bool) :=
  [.user (.addItem "pty-1" ⟨"first", []⟩ "item-1" 1)] ++
    replicate 9 (.advance false (idleAnswers "token-1")) ++
    [.abort false (.message none "terminated"), .recoverInflight 5,
      .user (.retryItem "pty-1" "item-1" 6)] ++
    replicate 14 (.advance true (idleAnswers "token-2"))

theorem crashedDispatch_delivers :
    let w := Run.run (dispatchStep twoChecks) (dispatchInit 0) crashedDispatch
    let log := sessionLog "pty-1" w.shared.history
    log = [.added "item-1", .retried "item-1", .submitted "item-1"] ∧ Run.Every MaySubmit log :=
  ⟨by decide +kernel,
    (delivered_once_in_order twoChecks 0 crashedDispatch (by decide +kernel) "pty-1").1⟩

/-- recovery runs while an execution is about to submit, and the prompt is retried meanwhile -/
def recoveredMidDispatch : List (DispatchAction Bool) :=
  [.user (.addItem "pty-1" ⟨"first", []⟩ "item-1" 1)] ++
    replicate 9 (.advance false (idleAnswers "token-1")) ++
    [.recoverInflight 5, .user (.retryItem "pty-1" "item-1" 6)] ++
    replicate 10 (.advance true (idleAnswers "token-2")) ++
    [.advance false (idleAnswers "token-3")]

/-- two executions submit one prompt to one session at a time, without a retry in between -/
theorem recoveredMidDispatch_twice :
    let w := Run.run (dispatchStep twoChecks) (dispatchInit 0) recoveredMidDispatch
    sessionLog "pty-1" w.shared.history =
        [.added "item-1", .retried "item-1", .submitted "item-1", .submitted "item-1"] ∧
      ¬ Run.Every MaySubmit (sessionLog "pty-1" w.shared.history) ∧
      (w.pc false).isSubmitting ∧ (w.pc true).isSubmitting := by
  decide +kernel

end CcPanes

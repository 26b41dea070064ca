import CcPanes.Foundation.ArrivalOrder
import CcPanes.Foundation.Run
import CcPanes.TaskQueue.PromptQueue

/-!
# Delivering the prompts of a queue

The queue of one session with the deliverers `i : ι` that claim its head, hand it over and settle
the claim, and a log of what was added, retried and handed over.  What is wanted of it is that a
prompt is handed over once for each time it is asked for, and in the order of arrival.
-/

set_option linter.unusedSectionVars false

namespace CcPanes

open ArrivalOrder PromptQueue List Function Option

inductive Entry where
  | added (id : String)
  | retried (id : String)
  | submitted (id : String)
  deriving DecidableEq

namespace Entry

def addedId : Entry → Option String
  | added id => some id
  | _ => none

def submittedId : Entry → Option String
  | submitted id => some id
  | _ => none

end Entry

def addedIn (log : List Entry) : List String := log.filterMap Entry.addedId

def submittedIn (log : List Entry) : List String := log.filterMap Entry.submittedId

/-- how often a prompt was handed over since it was last retried -/
def sinceRetry (id : String) (log : List Entry) : Nat :=
  log.foldl (fun n e => if e = .retried id then 0 else if e = .submitted id then n + 1 else n) 0

def MaySubmit (before : List Entry) : Entry → Prop
  | .submitted id => sinceRetry id before = 0
  | _ => True

instance (before : List Entry) : (e : Entry) → Decidable (MaySubmit before e)
  | .submitted id => inferInstanceAs (Decidable (sinceRetry id before = 0))
  | .added _ => .isTrue trivial
  | .retried _ => .isTrue trivial

section
variable (log : List Entry) (id id' : String)

theorem addedIn_snoc (e : Entry) : addedIn (log ++ [e]) = addedIn log ++ e.addedId.toList := by
  unfold addedIn
  rw [filterMap_append]
  cases e <;> rfl

theorem submittedIn_snoc (e : Entry) :
    submittedIn (log ++ [e]) = submittedIn log ++ e.submittedId.toList := by
  unfold submittedIn
  rw [filterMap_append]
  cases e <;> rfl

theorem sinceRetry_snoc (e : Entry) : sinceRetry id (log ++ [e]) =
    if e = .retried id then 0 else if e = .submitted id then sinceRetry id log + 1
      else sinceRetry id log := by
  unfold sinceRetry
  rw [foldl_append]
  rfl

theorem sinceRetry_added : sinceRetry id (log ++ [.added id']) = sinceRetry id log := by
  rw [sinceRetry_snoc]
  simp

theorem sinceRetry_retried_le :
    sinceRetry id (log ++ [.retried id']) = 0 ∨
      sinceRetry id (log ++ [.retried id']) = sinceRetry id log := by
  rw [sinceRetry_snoc]
  by_cases h : id' = id <;> simp [h]

theorem sinceRetry_retried_self : sinceRetry id (log ++ [.retried id]) = 0 := by
  rw [sinceRetry_snoc]
  simp

theorem sinceRetry_submitted_other (h : id' ≠ id) :
    sinceRetry id (log ++ [.submitted id']) = sinceRetry id log := by
  rw [sinceRetry_snoc]
  simp [h]

theorem sinceRetry_of_not_mem (h : id ∉ submittedIn log) : sinceRetry id log = 0 := by
  refine Run.history_induct (I := fun log => id ∉ submittedIn log → sinceRetry id log = 0)
    (fun _ => rfl) (fun log e ih hmem => ?_) log h
  rw [submittedIn_snoc, mem_append, not_or] at hmem
  rw [sinceRetry_snoc, ih hmem.1]
  have hne : e ≠ .submitted id := by
    rintro rfl
    exact hmem.2 (mem_singleton_self id)
  simp [hne]

end

/-! ## deliverers -/

structure Ticket where
  item : String
  token : String

inductive Stage where
  | idle
  | unsent (t : Ticket)
  | sending (t : Ticket)
  | withdrawing (t : Ticket)
  | settling (t : Ticket)

namespace Stage

def ticket : Stage → Option Ticket
  | idle => none
  | unsent t | sending t | withdrawing t | settling t => some t

def active : Stage → Option Ticket
  | unsent t | sending t => some t
  | _ => none

def fresh : Stage → Option Ticket
  | unsent t | withdrawing t => some t
  | _ => none

theorem ticket_of_active {s : Stage} {t : Ticket} (h : s.active = some t) : s.ticket = some t := by
  cases s with
  | unsent | sending => exact h
  | _ => cases h

theorem ticket_of_fresh {s : Stage} {t : Ticket} (h : s.fresh = some t) : s.ticket = some t := by
  cases s with
  | unsent | withdrawing => exact h
  | _ => cases h

structure Demotes (s s' : Stage) : Prop where
  inactive : s'.active = none
  ticket : ∀ t, s'.ticket = some t → s.ticket = some t
  fresh : ∀ t, s'.fresh = some t → s.fresh = some t

theorem demotes_idle (s : Stage) : Demotes s idle :=
  ⟨rfl, fun t h => absurd h.symm (some_ne_none t),
    fun t h => absurd h.symm (some_ne_none t)⟩

theorem demotes_withdrawing (t : Ticket) : Demotes (unsent t) (withdrawing t) :=
  ⟨rfl, fun _ h => h, fun _ h => h⟩

theorem demotes_settling {s : Stage} {t : Ticket} (h : s.ticket = some t) :
    Demotes s (settling t) :=
  ⟨rfl, fun _ ht' => h.trans ht', fun t' h' => absurd h'.symm (some_ne_none t')⟩

end Stage

structure PromptDelivery (ι : Type) where
  queue : PromptQueue
  log : List Entry
  used : List String
  stage : ι → Stage

variable {ι : Type} [DecidableEq ι]

namespace PromptDelivery

def Current (q : PromptQueue) (t : Ticket) : Prop :=
  q.isHead t.item ∧ q.head = .dispatching t.token

/-- prompts leave the queue: the head stays as it is, or a new one starts out queued -/
structure Shrinks (q q' : PromptQueue) : Prop where
  items : q'.items.Sublist q.items
  head : (q'.head = q.head ∧ ∀ id, q'.isHead id ↔ q.isHead id) ∨
    (q'.head = .queued ∧ ∀ id, q.isHead id → id ∉ q'.items)

inductive Step : PromptDelivery ι → PromptDelivery ι → Prop
  | mint {d : PromptDelivery ι} (used' : List String) (hused : ∀ u ∈ d.used, u ∈ used') :
      Step d { d with used := used' }
  | add {d : PromptDelivery ι} (id : String) (hid : id ∉ d.used)
      (hlen : d.queue.items.length < taskQueueMaxItems) :
      Step d { d with
        queue := d.queue.add id, log := d.log ++ [.added id], used := id :: d.used }
  | leave {d : PromptDelivery ι} (q' : PromptQueue) (hq : Shrinks d.queue q')
      (hfree : q'.head = d.queue.head ∨ ∀ t, d.queue.head ≠ .dispatching t) :
      Step d { d with queue := q' }
  | retry {d : PromptDelivery ι} (id : String) (hid : d.queue.isHead id)
      (hphase : d.queue.head = .failed ∨ d.queue.head = .deliveryUnknown) :
      Step d { d with queue := d.queue.setHead .queued, log := d.log ++ [.retried id] }
  | recover {d : PromptDelivery ι} (hfree : ∀ i, (d.stage i).active = none) :
      Step d { d with queue := d.queue.recover }
  | claim {d : PromptDelivery ι} (i : ι) (t : Ticket) (hid : d.queue.isHead t.item)
      (hqueued : d.queue.head = .queued) (htoken : t.token ∉ d.used) :
      Step d { d with
        queue := d.queue.setHead (.dispatching t.token)
        used := t.token :: d.used
        stage := Function.update d.stage i (.unsent t) }
  | submit {d : PromptDelivery ι} (i : ι) (t : Ticket) (hi : d.stage i = .unsent t) :
      Step d { d with
        log := d.log ++ [.submitted t.item], stage := Function.update d.stage i (.sending t) }
  | demote {d : PromptDelivery ι} (i : ι) (s : Stage) (hs : (d.stage i).Demotes s) :
      Step d { d with stage := Function.update d.stage i s }
  | complete {d : PromptDelivery ι} (i : ι) (t : Ticket) (hi : d.stage i = .settling t)
      (ht : Current d.queue t) :
      Step d { d with
        queue := d.queue.remove t.item, stage := Function.update d.stage i .idle }
  | fail {d : PromptDelivery ι} (i : ι) (t : Ticket) (hi : d.stage i = .settling t)
      (ht : Current d.queue t) (phase : HeadPhase)
      (hphase : phase = .failed ∨ phase = .deliveryUnknown) :
      Step d { d with
        queue := d.queue.setHead phase, stage := Function.update d.stage i .idle }
  | requeue {d : PromptDelivery ι} (i : ι) (t : Ticket) (hi : d.stage i = .withdrawing t)
      (ht : Current d.queue t) :
      Step d { d with
        queue := d.queue.setHead .queued, stage := Function.update d.stage i .idle }

/-! ## the claims -/

/-- deliverers hold different tokens, and the active ones the claim that is on the queue -/
structure Tickets (d : PromptDelivery ι) : Prop where
  minted : ∀ i t, (d.stage i).ticket = some t → t.token ∈ d.used
  own : ∀ i j t t', (d.stage i).ticket = some t → (d.stage j).ticket = some t' →
    t.token = t'.token → i = j
  current : ∀ i t, (d.stage i).active = some t → Current d.queue t

section
variable {d : PromptDelivery ι} {i j : ι} {t t' : Ticket} {q q' : PromptQueue}

theorem Current.token_eq (h : Current q t) (h' : Current q t') : t.token = t'.token :=
  HeadPhase.dispatching.inj (h.2.symm.trans h'.2)

theorem Shrinks.current (h : Shrinks q q') (ht : Current q' t) : Current q t := by
  rcases h.head with ⟨hhead, hiff⟩ | ⟨hhead, _⟩
  · exact ⟨(hiff _).mp ht.1, hhead.symm.trans ht.2⟩
  · have habsurd := hhead.symm.trans ht.2
    cases habsurd

theorem demoted_ticket {s : Stage} (hs : (d.stage i).Demotes s)
    (h : (Function.update d.stage i s j).ticket = some t) : (d.stage j).ticket = some t := by
  by_cases hj : j = i
  · subst hj
    rw [update_self] at h
    exact hs.ticket t h
  · rwa [update_of_ne hj] at h

theorem demoted_active {s : Stage} (hs : (d.stage i).Demotes s)
    (h : (Function.update d.stage i s j).active = some t) : (d.stage j).active = some t := by
  by_cases hj : j = i
  · subst hj
    rw [update_self, hs.inactive] at h
    cases h
  · rwa [update_of_ne hj] at h

theorem demoted_fresh {s : Stage} (hs : (d.stage i).Demotes s)
    (h : (Function.update d.stage i s j).fresh = some t) : (d.stage j).fresh = some t := by
  by_cases hj : j = i
  · subst hj
    rw [update_self] at h
    exact hs.fresh t h
  · rwa [update_of_ne hj] at h

theorem Tickets.free (h : Tickets d) (hi : (d.stage i).ticket = some t)
    (hidle : (d.stage i).active = none) (hc : Current d.queue t) (j : ι) :
    (d.stage j).active = none := by
  cases hj : (d.stage j).active with
  | none => rfl
  | some t' =>
    have hc' := h.current j t' hj
    have hij : i = j := h.own i j t t' hi (Stage.ticket_of_active hj) (hc.token_eq hc')
    rw [← hij, hidle] at hj
    cases hj

theorem Tickets.free_of_phase (h : Tickets d) (hd : ∀ t, d.queue.head ≠ .dispatching t) (j : ι) :
    (d.stage j).active = none := by
  cases hj : (d.stage j).active with
  | none => rfl
  | some t' => exact absurd (h.current j t' hj).2 (hd t'.token)

theorem Tickets.demote (h : Tickets d) {s : Stage} (hs : (d.stage i).Demotes s) :
    Tickets { d with stage := Function.update d.stage i s } where
  minted j t hj := h.minted j t (demoted_ticket hs hj)
  own j j' t t' hj hj' := h.own j j' t t' (demoted_ticket hs hj) (demoted_ticket hs hj')
  current j t hj := h.current j t (demoted_active hs hj)

theorem Tickets.of_free (h : Tickets d) (hfree : ∀ j, (d.stage j).active = none)
    (q' : PromptQueue) (log' : List Entry) : Tickets { d with queue := q', log := log' } := { h with
  current j t hj := by
    have hnone : (d.stage j).active = none := hfree j
    rw [hnone] at hj
    cases hj }

theorem Tickets.use (h : Tickets d) {used' : List String} (hused : ∀ u ∈ d.used, u ∈ used')
    (hcur : ∀ t, Current d.queue t → Current q' t) (log' : List Entry) :
    Tickets { d with queue := q', log := log', used := used' } where
  minted j t hj := hused t.token (h.minted j t hj)
  own := h.own
  current j t hj := hcur t (h.current j t hj)

theorem Tickets.claim (h : Tickets d) (hid : d.queue.isHead t.item)
    (hqueued : d.queue.head = .queued) (htoken : t.token ∉ d.used) :
    Tickets { d with
      queue := d.queue.setHead (.dispatching t.token)
      used := t.token :: d.used
      stage := Function.update d.stage i (.unsent t) } := by
  have hfree := h.free_of_phase (d := d) fun t' ht' => by
    rw [hqueued] at ht'
    cases ht'
  have hstage : ∀ j t', (update d.stage i (.unsent t) j).ticket = some t' →
      (j = i ∧ t' = t) ∨ (j ≠ i ∧ (d.stage j).ticket = some t') := by
    intro j t' hj
    by_cases hji : j = i
    · subst hji
      rw [update_self] at hj
      exact .inl ⟨rfl, (some.inj hj).symm⟩
    · rw [update_of_ne hji] at hj
      exact .inr ⟨hji, hj⟩
  have hnew : ∀ j t', (d.stage j).ticket = some t' → t'.token ≠ t.token :=
    fun j t' hj heq => htoken (heq ▸ h.minted j t' hj)
  refine ⟨fun j t' hj => ?_, fun j j' t₁ t₂ hj hj' heq => ?_, fun j t' hj => ?_⟩
  · rcases hstage j t' hj with ⟨_, rfl⟩ | ⟨_, hj⟩
    · exact mem_cons_self
    · exact mem_cons_of_mem _ (h.minted j t' hj)
  · rcases hstage j t₁ hj with ⟨rfl, rfl⟩ | ⟨_, hold⟩
    · rcases hstage j' t₂ hj' with ⟨rfl, _⟩ | ⟨_, hold'⟩
      · rfl
      · exact absurd heq.symm (hnew j' t₂ hold')
    · rcases hstage j' t₂ hj' with ⟨rfl, rfl⟩ | ⟨_, hold'⟩
      · exact absurd heq (hnew j t₁ hold)
      · exact h.own j j' t₁ t₂ hold hold' heq
  have hitems := setHead_items hid (.dispatching t.token)
  by_cases hji : j = i
  · subst hji
    have hj' : (update d.stage j (.unsent t) j).active = some t' := hj
    rw [update_self] at hj'
    cases hj'
    exact ⟨(hid.setHead _).mpr hid, hitems.2⟩
  · have hj' : (update d.stage i (.unsent t) j).active = some t' := hj
    rw [update_of_ne hji, hfree j] at hj'
    cases hj'

theorem Tickets.submit (h : Tickets d) (hi : d.stage i = .unsent t) (log' : List Entry) :
    Tickets { d with log := log', stage := Function.update d.stage i (.sending t) } := by
  have hticket : ∀ j t', (update d.stage i (.sending t) j).ticket = some t' →
      (d.stage j).ticket = some t' := by
    intro j t' hj
    by_cases hji : j = i
    · subst hji
      rw [update_self] at hj
      rw [hi]
      exact hj
    · rwa [update_of_ne hji] at hj
  refine ⟨fun j t' hj => h.minted j t' (hticket j t' hj),
    fun j j' t₁ t₂ hj hj' => h.own j j' t₁ t₂ (hticket j t₁ hj) (hticket j' t₂ hj'),
    fun j t' hj => ?_⟩
  by_cases hji : j = i
  · subst hji
    have hj' : (update d.stage j (.sending t) j).active = some t' := hj
    rw [update_self] at hj'
    exact h.current j t' (by rw [hi]; exact hj')
  · have hj' : (update d.stage i (.sending t) j).active = some t' := hj
    rw [update_of_ne hji] at hj'
    exact h.current j t' hj'

end

/-- the line is in the order of arrival, and nothing was handed over ahead of it -/
structure InLine (items : List String) (log : List Entry) (used : List String) : Prop where
  minted : ∀ id ∈ addedIn log, id ∈ used
  distinct : (addedIn log).Nodup
  line : items.Sublist (addedIn log)
  known : ∀ id ∈ submittedIn log, id ∈ addedIn log
  order : (submittedIn log).Pairwise (Before (addedIn log))
  ahead : ∀ x ∈ submittedIn log, ∀ id ∈ items, Before (addedIn log) x id

section
variable {items items' : List String} {log : List Entry} {used used' : List String} {id : String}

theorem InLine.leave (h : InLine items log used) (hsub : items'.Sublist items) :
    InLine items' log used :=
  { h with
    line := hsub.trans h.line
    ahead x hx id hid := h.ahead x hx id (hsub.subset hid) }

theorem InLine.use (h : InLine items log used) (hused : ∀ u ∈ used, u ∈ used') :
    InLine items log used' :=
  { h with minted := fun id hid => hused id (h.minted id hid) }

theorem InLine.retry (h : InLine items log used) (id : String) :
    InLine items (log ++ [.retried id]) used := by
  have hadded : addedIn (log ++ [.retried id]) = addedIn log :=
    (addedIn_snoc log _).trans (append_nil _)
  have hsubmitted : submittedIn (log ++ [.retried id]) = submittedIn log :=
    (submittedIn_snoc log _).trans (append_nil _)
  refine ⟨?_, ?_, ?_, ?_, ?_, ?_⟩
  all_goals simp only [hadded, hsubmitted]
  · exact h.minted
  · exact h.distinct
  · exact h.line
  · exact h.known
  · exact h.order
  · exact h.ahead

theorem InLine.add (h : InLine items log used) (hid : id ∉ used) :
    InLine (items ++ [id]) (log ++ [.added id]) (id :: used) := by
  have hadded : addedIn (log ++ [.added id]) = addedIn log ++ [id] := addedIn_snoc log _
  have hsubmitted : submittedIn (log ++ [.added id]) = submittedIn log :=
    (submittedIn_snoc log _).trans (append_nil _)
  have hnew : id ∉ addedIn log := fun hmem => hid (h.minted id hmem)
  refine ⟨?_, ?_, ?_, ?_, ?_, ?_⟩
  all_goals simp only [hadded, hsubmitted]
  · intro x hx
    rcases mem_append.mp hx with hx | hx
    · exact mem_cons_of_mem id (h.minted x hx)
    · rw [mem_singleton.mp hx]
      exact mem_cons_self
  · refine nodup_append.mpr ⟨h.distinct, nodup_singleton id, fun a ha b hb hab => ?_⟩
    exact hnew (mem_singleton.mp hb ▸ hab ▸ ha)
  · exact h.line.append (List.Sublist.refl [id])
  · exact fun x hx => mem_append_left [id] (h.known x hx)
  · refine h.order.imp_of_mem fun ha hb hab => ?_
    exact (before_append (h.known _ ha) (h.known _ hb) [id]).mpr hab
  · intro x hx y hy
    have hxl := h.known x hx
    rcases mem_append.mp hy with hy | hy
    · exact (before_append hxl (h.line.subset hy) [id]).mpr (h.ahead x hx y hy)
    · rw [mem_singleton.mp hy]
      exact before_last hxl hnew

theorem InLine.submit {rest : List String} (h : InLine (id :: rest) log used) :
    InLine (id :: rest) (log ++ [.submitted id]) used := by
  have hadded : addedIn (log ++ [.submitted id]) = addedIn log :=
    (addedIn_snoc log _).trans (append_nil _)
  have hsubmitted : submittedIn (log ++ [.submitted id]) = submittedIn log ++ [id] :=
    submittedIn_snoc log _
  refine ⟨?_, ?_, ?_, ?_, ?_, ?_⟩
  all_goals simp only [hadded, hsubmitted]
  · exact h.minted
  · exact h.distinct
  · exact h.line
  · intro x hx
    rcases mem_append.mp hx with hx | hx
    · exact h.known x hx
    · rw [mem_singleton.mp hx]
      exact h.line.subset mem_cons_self
  · refine pairwise_append.mpr ⟨h.order, pairwise_singleton _ _, fun x hx y hy => ?_⟩
    rw [mem_singleton.mp hy]
    exact h.ahead x hx id mem_cons_self
  · intro x hx y hy
    rcases mem_append.mp hx with hx | hx
    · exact h.ahead x hx y hy
    · rw [mem_singleton.mp hx]
      exact before_of_head h.distinct h.line hy

end

/-! ## what was not handed over -/

/-- what waits was not handed over since its last retry, nor was what a deliverer gives back -/
structure Unsent (q : PromptQueue) (log : List Entry) (stage : ι → Stage) : Prop where
  fresh : ∀ i t, (stage i).fresh = some t → Current q t → sinceRetry t.item log = 0
  waiting : ∀ id ∈ q.items, (q.isHead id → q.head = .queued) → sinceRetry id log = 0
  once : Run.Every MaySubmit log

section
variable {d : PromptDelivery ι} {i : ι} {t : Ticket} {q q' : PromptQueue} {log : List Entry}
  {stage : ι → Stage} {id : String}

theorem Unsent.leave (h : Unsent q log stage) (hq : Shrinks q q') : Unsent q' log stage where
  fresh j t hj ht := h.fresh j t hj (hq.current ht)
  waiting id hid hhead := by
    refine h.waiting id (hq.items.subset hid) fun hold => ?_
    rcases hq.head with ⟨heq, hiff⟩ | ⟨_, hgone⟩
    · rw [← heq]
      exact hhead ((hiff id).mpr hold)
    · exact absurd hid (hgone id hold)
  once := h.once

theorem Unsent.demote (h : Unsent q log d.stage) {s : Stage} (hs : (d.stage i).Demotes s) :
    Unsent q log (Function.update d.stage i s) :=
  { h with fresh := fun j t hj ht => h.fresh j t (demoted_fresh hs hj) ht }

theorem Unsent.setHead (h : Unsent q log stage) (hid : q.isHead id) {phase : HeadPhase}
    (hphase : phase.token = none) (hqueued : phase = .queued → sinceRetry id log = 0) :
    Unsent (q.setHead phase) log stage := by
  obtain ⟨hitems, hhead⟩ := setHead_items hid phase
  refine ⟨fun j t hj ht => ?_, fun x hx hxq => ?_, h.once⟩
  · have htok : phase = .dispatching t.token := hhead.symm.trans ht.2
    rw [htok] at hphase
    cases hphase
  rw [hitems] at hx
  by_cases hxid : q.isHead x
  · have heq : phase = .queued := hhead.symm.trans (hxq ((hid.setHead phase).mpr hxid))
    rw [hxid.unique hid]
    exact hqueued heq
  · exact h.waiting x hx fun hx' => absurd hx' hxid

theorem Unsent.claim (h : Unsent q log stage) (hid : q.isHead t.item) (hqueued : q.head = .queued) :
    Unsent (q.setHead (.dispatching t.token)) log (Function.update stage i (.unsent t)) := by
  obtain ⟨hitems, hhead⟩ := setHead_items hid (.dispatching t.token)
  have hzero : sinceRetry t.item log = 0 := h.waiting t.item hid.mem fun _ => hqueued
  refine ⟨fun j t' _ ht' => ?_, fun x hx hxq => ?_, h.once⟩
  · rw [((hid.setHead _).mp ht'.1).unique hid]
    exact hzero
  rw [hitems] at hx
  refine h.waiting x hx fun hxid => ?_
  have habsurd := hhead.symm.trans (hxq ((hid.setHead _).mpr hxid))
  cases habsurd

theorem Unsent.retry (h : Unsent q log stage) (hid : q.isHead id) :
    Unsent (q.setHead .queued) (log ++ [.retried id]) stage := by
  have hle : ∀ x, sinceRetry x log = 0 → sinceRetry x (log ++ [.retried id]) = 0 := by
    intro x hx
    rcases sinceRetry_retried_le log x id with h0 | h0
    · exact h0
    · exact h0.trans hx
  have hlog : Unsent q (log ++ [.retried id]) stage := by
    refine ⟨fun j t hj ht => hle _ (h.fresh j t hj ht), fun x hx hxq => hle x (h.waiting x hx hxq),
      (Run.every_snoc _ _ _).mpr ⟨h.once, trivial⟩⟩
  exact hlog.setHead hid rfl fun _ => sinceRetry_retried_self log id

theorem Unsent.submit (h : Unsent d.queue d.log d.stage) (ht : Tickets d)
    (hi : d.stage i = .unsent t) :
    Unsent d.queue (d.log ++ [.submitted t.item]) (Function.update d.stage i (.sending t)) := by
  have hcur : Current d.queue t := ht.current i t (by rw [hi]; rfl)
  have hfresh : sinceRetry t.item d.log = 0 := h.fresh i t (by rw [hi]; rfl) hcur
  refine ⟨fun j t' hj ht' => ?_, fun x hx hxq => ?_, (Run.every_snoc _ _ _).mpr ⟨h.once, hfresh⟩⟩
  · by_cases hji : j = i
    · subst hji
      rw [update_self] at hj
      cases hj
    · rw [update_of_ne hji] at hj
      have hij := ht.own j i t' t (Stage.ticket_of_fresh hj) (by rw [hi]; rfl) (ht'.token_eq hcur)
      exact absurd hij hji
  · have hne : t.item ≠ x := by
      rintro rfl
      have habsurd := hcur.2.symm.trans (hxq hcur.1)
      cases habsurd
    rw [sinceRetry_submitted_other _ _ _ hne]
    exact h.waiting x hx hxq

theorem Unsent.add (h : Unsent q log stage) (hid : id ∉ q.items)
    (hlen : q.items.length < taskQueueMaxItems) (hnew : sinceRetry id log = 0) :
    Unsent (q.add id) (log ++ [.added id]) stage := by
  obtain ⟨hitems, hhead⟩ := add_items hid hlen
  refine ⟨fun j t hj ht => ?_, fun x hx hxq => ?_, (Run.every_snoc _ _ _).mpr ⟨h.once, trivial⟩⟩
  · -- what is dispatched was the head before
    rw [sinceRetry_added]
    rw [Current, hhead] at ht
    obtain ⟨y, hy⟩ := exists_isHead ht.2
    have heq : y = t.item := (hy.add id).unique ht.1
    exact h.fresh j t hj ⟨heq ▸ hy, ht.2⟩
  rw [sinceRetry_added]
  rw [hitems] at hx
  rcases mem_append.mp hx with hx | hx
  · refine h.waiting x hx fun hold => ?_
    rw [← hhead]
    exact hxq (hold.add id)
  · rw [mem_singleton.mp hx]
    exact hnew

end

/-! ## the system -/

structure Orderly (d : PromptDelivery ι) : Prop where
  tickets : Tickets d
  inLine : InLine d.queue.items d.log d.used
  unsent : Unsent d.queue d.log d.stage

theorem items_setHead {q : PromptQueue} {id : String} {log : List Entry} {used : List String}
    (h : InLine q.items log used) (hid : q.isHead id) (phase : HeadPhase) :
    InLine (q.setHead phase).items log used := by
  rw [(setHead_items hid phase).1]
  exact h

theorem shrinks_remove (q : PromptQueue) (id : String) : Shrinks q (q.remove id) := by
  refine ⟨erase_sublist, ?_⟩
  by_cases hid : q.isHead id
  · refine .inr ⟨if_pos hid, fun x hx => ?_⟩
    rw [hx.unique hid]
    exact fun hmem => absurd rfl ((q.nodup.mem_erase_iff.mp hmem).1)
  refine .inl ⟨if_neg hid, fun x => ?_⟩
  show (q.items.erase id).head? = some x ↔ q.items.head? = some x
  unfold isHead at hid
  cases hq : q.items with
  | nil => rfl
  | cons y =>
    have hne : y ≠ id := by
      rintro rfl
      rw [hq] at hid
      exact hid rfl
    rw [erase_cons_tail (by simpa using hne)]
    rfl

theorem shrinks_clear (q : PromptQueue) : Shrinks q q.clear := by
  by_cases hd : ∃ t, q.head = .dispatching t
  · obtain ⟨t, ht⟩ := hd
    obtain ⟨hitems, hhead⟩ := clear_of_dispatching ht
    refine ⟨hitems ▸ take_sublist 1 q.items, .inl ⟨hhead.trans ht.symm, fun x => ?_⟩⟩
    unfold isHead
    rw [hitems]
    cases q.items with
    | nil => rfl
    | cons => rfl
  · rw [clear_of_not_dispatching fun t ht => hd ⟨t, ht⟩]
    exact ⟨nil_sublist _, .inr ⟨rfl, fun x _ => not_mem_nil⟩⟩

section
variable {d d' : PromptDelivery ι} {i : ι} {t : Ticket}

theorem Orderly.settle (h : Orderly d) (hi : (d.stage i).ticket = some t)
    (hidle : (d.stage i).active = none) (ht : Current d.queue t) {phase : HeadPhase}
    (hphase : phase.token = none) (hqueued : phase = .queued → sinceRetry t.item d.log = 0) :
    Orderly { d with
      queue := d.queue.setHead phase, stage := Function.update d.stage i .idle } := by
  have hfree := h.tickets.free hi hidle ht
  exact ⟨(h.tickets.of_free hfree (d.queue.setHead phase) d.log).demote (Stage.demotes_idle _),
    items_setHead h.inLine ht.1 phase,
    (h.unsent.setHead ht.1 hphase hqueued).demote (Stage.demotes_idle _)⟩

theorem Orderly.leave (h : Orderly d) {q' : PromptQueue} (hq : Shrinks d.queue q')
    (hfree : q'.head = d.queue.head ∨ ∀ t, d.queue.head ≠ .dispatching t) :
    Orderly { d with queue := q' } := by
  refine ⟨?_, h.inLine.leave hq.items, h.unsent.leave hq⟩
  rcases hq.head with ⟨hhead, hiff⟩ | ⟨hhead, hgone⟩
  · exact h.tickets.use (fun _ hu => hu)
      (fun t ht => ⟨(hiff t.item).mpr ht.1, hhead.trans ht.2⟩) d.log
  refine h.tickets.of_free (h.tickets.free_of_phase fun t ht => ?_) q' d.log
  rcases hfree with heq | hno
  · have habsurd := hhead.symm.trans (heq.trans ht)
    cases habsurd
  · exact hno t ht

/-- **Every step keeps the order**: the claims, the line, and what was not handed over. -/
theorem Step.orderly (hs : Step d d') (h : Orderly d) : Orderly d' := by
  cases hs with
  | mint used' hused =>
    exact ⟨h.tickets.use hused (fun _ ht => ht) d.log, h.inLine.use hused, h.unsent⟩
  | add id hid hlen =>
    have hitems : id ∉ d.queue.items :=
      fun hmem => hid (h.inLine.minted id (h.inLine.line.subset hmem))
    have hnew : sinceRetry id d.log = 0 := sinceRetry_of_not_mem _ _ fun hmem =>
      hid (h.inLine.minted id (h.inLine.known id hmem))
    have hcur : ∀ t, Current d.queue t → Current (d.queue.add id) t := fun t ht =>
      ⟨ht.1.add id, (add_items hitems hlen).2.trans ht.2⟩
    refine ⟨h.tickets.use (fun u hu => mem_cons_of_mem id hu) hcur _, ?_,
      h.unsent.add hitems hlen hnew⟩
    show InLine (d.queue.add id).items _ _
    rw [(add_items hitems hlen).1]
    exact h.inLine.add hid
  | leave q' hq hfree => exact h.leave hq hfree
  | retry id hid hphase =>
    have hfree := h.tickets.free_of_phase fun t ht => by
      rcases hphase with hf | hf <;> rw [hf] at ht <;> cases ht
    exact ⟨h.tickets.of_free hfree _ _, items_setHead (h.inLine.retry id) hid _, h.unsent.retry hid⟩
  | recover hfree =>
    by_cases hd : ∃ t, d.queue.head = .dispatching t
    · obtain ⟨t, ht⟩ := hd
      obtain ⟨id, hid⟩ := exists_isHead ht
      rw [recover_of_dispatching ht]
      refine ⟨h.tickets.of_free hfree _ d.log, items_setHead h.inLine hid _,
        h.unsent.setHead hid rfl fun habsurd => ?_⟩
      cases habsurd
    · rw [recover_of_not_dispatching fun t ht => hd ⟨t, ht⟩]
      exact h
  | claim i t hid hqueued htoken =>
    exact ⟨h.tickets.claim hid hqueued htoken,
      items_setHead (h.inLine.use fun u hu => mem_cons_of_mem t.token hu) hid _,
      h.unsent.claim hid hqueued⟩
  | submit i t hi =>
    have hcur : Current d.queue t := h.tickets.current i t (by rw [hi]; rfl)
    obtain ⟨rest, hq⟩ := hcur.1.cons
    refine ⟨h.tickets.submit hi _, ?_, h.unsent.submit h.tickets hi⟩
    have hline := h.inLine
    rw [hq] at hline
    show InLine d.queue.items _ _
    rw [hq]
    exact hline.submit
  | demote i s hs => exact ⟨h.tickets.demote hs, h.inLine, h.unsent.demote hs⟩
  | complete i t hi ht =>
    have hfree := h.tickets.free (i := i) (t := t) (by rw [hi]; rfl) (by rw [hi]; rfl) ht
    exact ⟨(h.tickets.of_free hfree _ d.log).demote (Stage.demotes_idle _),
      h.inLine.leave erase_sublist,
      (h.unsent.leave (shrinks_remove _ _)).demote (Stage.demotes_idle _)⟩
  | fail i t hi ht phase hphase =>
    refine h.settle (by rw [hi]; rfl) (by rw [hi]; rfl) ht ?_ fun hq => ?_
    · rcases hphase with rfl | rfl <;> rfl
    · rcases hphase with rfl | rfl <;> cases hq
  | requeue i t hi ht =>
    refine h.settle (by rw [hi]; rfl) (by rw [hi]; rfl) ht rfl fun _ => ?_
    exact h.unsent.fresh i t (by rw [hi]; rfl) ht

/-- **At most one deliverer is on its way to hand something over.** -/
theorem Orderly.single (h : Orderly d) {j : ι} {t' : Ticket} (hi : (d.stage i).active = some t)
    (hj : (d.stage j).active = some t') : i = j :=
  h.tickets.own i j t t' (Stage.ticket_of_active hi) (Stage.ticket_of_active hj)
    ((h.tickets.current i t hi).token_eq (h.tickets.current j t' hj))

end

end PromptDelivery
end CcPanes

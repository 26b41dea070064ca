import CcPanes.Daemon.IdentityEvents
import CcPanes.Foundation.Run
import Mathlib.Data.List.Induction

/-!
# How long an identity event is retained

Runs of `retain_identity_event` and `ack_identity_events`.  A map has the events, and a queue their
sessions in the order in which they came in.
-/

namespace CcPanes
open Run List Option

/-- an event with a source and a resume id -/
structure IdentityEvent where
  sessionId : String
  source : String
  resumeId : String
  payload : Json
  session_eq : payload.str "sessionId" = some sessionId
  source_eq : payload.str "source" = some source
  resume_eq : payload.str "resumeSessionId" = some resumeId

def payloadPriority (payload : Json) : Nat := sourcePriority ((payload.str "source").getD "")

def IdentityEvent.priority (e : IdentityEvent) : Nat := payloadPriority e.payload

inductive RetentionAction where
  | retain (event : IdentityEvent)
  | ack (keys : List (String × String))

namespace IdentityEventStore

def act (store : IdentityEventStore) : RetentionAction → IdentityEventStore
  | .retain event => store.retainIdentityEvent event.sessionId event.payload
  | .ack keys => store.ackIdentityEvents keys

/-- the map and the queue have the same sessions, each once, and not too many; what is retained is
an event that came in -/
structure InStep (store : IdentityEventStore) : Prop where
  keys : store.order.Perm store.bySession.keys
  bound : store.order.length ≤ maxRetainedIdentityEvents
  events : ∀ sessionId payload, store.bySession.lookup sessionId = some payload →
    ∃ e : IdentityEvent, e.sessionId = sessionId ∧ e.payload = payload

section
variable {store : IdentityEventStore}

theorem InStep.nodup (h : InStep store) : store.order.Nodup :=
  h.keys.nodup_iff.mpr store.bySession.keys_nodup

theorem InStep.mem_iff (h : InStep store) {sessionId : String} :
    sessionId ∈ store.order ↔ (store.bySession.lookup sessionId).isSome := by
  rw [h.keys.mem_iff, ← AList.mem_keys, AList.lookup_isSome]

theorem InStep.absent_iff (h : InStep store) {sessionId : String} :
    sessionId ∉ store.order ↔ store.bySession.lookup sessionId = none := by
  rw [h.mem_iff, not_isSome_iff_eq_none]

end

theorem evict_short {bySession : FiniteMap String Json} {order : List String}
    (h : order.length ≤ maxRetainedIdentityEvents) : evict bySession order = ⟨bySession, order⟩ := by
  cases order with
  | nil => rfl
  | cons =>
    rw [evict, if_neg (Nat.not_lt.mpr h)]

theorem evict_long {bySession : FiniteMap String Json} {oldest : String} {rest : List String}
    (h : rest.length = maxRetainedIdentityEvents) :
    evict bySession (oldest :: rest) = ⟨bySession.erase oldest, rest⟩ := by
  rw [evict, if_pos (by rw [length_cons, h]; exact Nat.lt_succ_self _),
    evict_short (Nat.le_of_eq h)]

/-- what an event does: nothing, or it replaces the one of its session, or it comes in, and with
the last place taken the oldest goes -/
inductive Retains (store : IdentityEventStore) (e : IdentityEvent) : IdentityEventStore → Prop
  | kept (h : store.keepsIncoming e.sessionId e.payload = false) : Retains store e store
  | replaced (h : (store.bySession.lookup e.sessionId).isSome)
      (hkeep : store.keepsIncoming e.sessionId e.payload = true) :
      Retains store e ⟨store.bySession.insert e.sessionId e.payload, store.order⟩
  | added (h : store.bySession.lookup e.sessionId = none)
      (hroom : store.order.length < maxRetainedIdentityEvents) :
      Retains store e
        ⟨store.bySession.insert e.sessionId e.payload, store.order ++ [e.sessionId]⟩
  | evicted {oldest : String} {rest : List String}
      (h : store.bySession.lookup e.sessionId = none) (horder : store.order = oldest :: rest)
      (hfull : store.order.length = maxRetainedIdentityEvents) :
      Retains store e
        ⟨(store.bySession.insert e.sessionId e.payload).erase oldest, rest ++ [e.sessionId]⟩

theorem retain_cases {store : IdentityEventStore} (hin : InStep store) (e : IdentityEvent) :
    Retains store e (store.retainIdentityEvent e.sessionId e.payload) := by
  unfold retainIdentityEvent
  cases hkeep : store.keepsIncoming e.sessionId e.payload with
  | false => exact .kept hkeep
  | true =>
    rw [if_pos rfl]
    cases hlookup : store.bySession.lookup e.sessionId with
    | some =>
      rw [if_neg (by simp), evict_short hin.bound]
      exact .replaced (by rw [hlookup]; rfl) hkeep
    | none =>
      rw [if_pos isNone_none]
      rcases Nat.lt_or_ge store.order.length maxRetainedIdentityEvents with hroom | hfull
      · rw [evict_short (by rw [length_append]; exact hroom)]
        exact .added hlookup hroom
      have hlen := Nat.le_antisymm hin.bound hfull
      cases horder : store.order with
      | nil =>
        rw [horder] at hlen
        cases hlen
      | cons oldest rest =>
        have hrest : (rest ++ [e.sessionId]).length = maxRetainedIdentityEvents := by
          rw [← hlen, horder, length_append, length_cons]
          rfl
        rw [cons_append, evict_long hrest]
        exact .evicted hlookup horder hlen

section
variable {store : IdentityEventStore}

theorem keys_insert_perm (m : FiniteMap String Json) {sessionId : String} {payload : Json}
    (h : (m.lookup sessionId).isSome) :
    (m.insert sessionId payload).keys.Perm m.keys := by
  rw [AList.keys_insert]
  exact (perm_cons_erase (AList.mem_keys.mp (AList.lookup_isSome.mp h))).symm

theorem keys_insert_new (m : FiniteMap String Json) {sessionId : String} {payload : Json}
    (h : m.lookup sessionId = none) :
    (m.insert sessionId payload).keys = sessionId :: m.keys := by
  rw [AList.keys_insert, erase_of_not_mem fun hmem => AList.lookup_eq_none.mp h hmem]

theorem retain_inStep (hin : InStep store) (e : IdentityEvent) :
    InStep (store.retainIdentityEvent e.sessionId e.payload) := by
  have hinserted : ∀ s d, (store.bySession.insert e.sessionId e.payload).lookup s = some d →
      ∃ e : IdentityEvent, e.sessionId = s ∧ e.payload = d := by
    intro s d hd
    rcases FiniteMap.lookup_insert_eq_some_iff.mp hd with ⟨rfl, rfl⟩ | ⟨-, hd⟩
    · exact ⟨e, rfl, rfl⟩
    · exact hin.events s d hd
  have hcases := retain_cases hin e
  generalize store.retainIdentityEvent e.sessionId e.payload = store' at hcases
  cases hcases with
  | kept => exact hin
  | replaced h =>
    exact ⟨hin.keys.trans (keys_insert_perm _ h).symm, hin.bound, hinserted⟩
  | added h hroom =>
    refine ⟨?_, ?_, hinserted⟩
    · rw [keys_insert_new _ h]
      exact (perm_append_singleton _ _).trans (hin.keys.cons _)
    · rw [length_append]
      exact hroom
  | @evicted oldest rest h horder hfull =>
    have hkeys : (rest ++ [e.sessionId]).Perm
        ((store.bySession.insert e.sessionId e.payload).erase oldest).keys := by
      have hall := (perm_append_singleton e.sessionId store.order).trans (hin.keys.cons _)
      have herased := hall.erase oldest
      rw [horder, cons_append, erase_cons_head] at herased
      rw [AList.keys_erase, keys_insert_new _ h]
      exact herased
    refine ⟨hkeys, ?_, fun s d hd => hinserted s d (FiniteMap.lookup_erase_eq_some_iff.mp hd).2⟩
    rw [length_append, ← hfull, horder]
    exact Nat.le_refl _

theorem ack_inStep (hin : InStep store) (key : String × String) :
    InStep (store.ackIdentityEvent key) := by
  unfold ackIdentityEvent
  split
  · refine ⟨?_, Nat.le_trans (length_filter_le _ _) hin.bound, fun s d hd => ?_⟩
    · rw [AList.keys_erase]
      have hfilter : store.order.filter (· ≠ key.1) = store.order.erase key.1 := by
        rw [hin.nodup.erase_eq_filter]
        exact filter_congr fun x _ => Bool.eq_iff_iff.mpr (by simp)
      rw [hfilter]
      exact hin.keys.erase key.1
    · exact hin.events s d (FiniteMap.lookup_erase_eq_some_iff.mp hd).2
  · exact hin

theorem act_inStep (a : RetentionAction) (hin : InStep store) : InStep (store.act a) := by
  cases a with
  | retain e => exact retain_inStep hin e
  | ack keys =>
    induction keys generalizing store with
    | nil => exact hin
    | cons key keys ih => exact ih (ack_inStep hin key)

end

/-! ## the priority -/

section
variable {store : IdentityEventStore} {sessionId : String}

theorem keepsIncoming_priority {d : Json} {held e : IdentityEvent} (hd : held.payload = d)
    (h : store.bySession.lookup e.sessionId = some d) :
    (store.keepsIncoming e.sessionId e.payload = true → held.priority ≤ e.priority) ∧
      (store.keepsIncoming e.sessionId e.payload = false → e.priority ≤ held.priority) := by
  subst hd
  unfold keepsIncoming
  rw [h]
  dsimp only
  unfold IdentityEvent.priority payloadPriority
  rw [held.source_eq, held.resume_eq, e.source_eq, e.resume_eq]
  unfold shouldRetainIncoming
  simp only [getD_some]
  split
  · next hlt => exact ⟨fun _ => Nat.le_of_lt hlt, nofun⟩
  next hge =>
  refine ⟨fun hkeep => ?_, fun _ => Nat.not_lt.mp hge⟩
  rw [Bool.and_eq_true, decide_eq_true_eq] at hkeep
  exact Nat.le_of_eq hkeep.1.symm

theorem retain_same (hin : InStep store) (e : IdentityEvent) {held : IdentityEvent}
    (h : store.bySession.lookup e.sessionId = some held.payload) :
    ∃ e' : IdentityEvent, (store.act (.retain e)).bySession.lookup e.sessionId = some e'.payload ∧
      e'.priority = max held.priority e.priority := by
  obtain ⟨hbetter, hworse⟩ := keepsIncoming_priority rfl h
  show ∃ e', (store.retainIdentityEvent e.sessionId e.payload).bySession.lookup _ = _ ∧ _
  have hcases := retain_cases hin e
  generalize store.retainIdentityEvent e.sessionId e.payload = store' at hcases
  cases hcases with
  | kept hkeep => exact ⟨held, h, (Nat.max_eq_left (hworse hkeep)).symm⟩
  | replaced _ hkeep =>
    exact ⟨e, AList.lookup_insert _, (Nat.max_eq_right (hbetter hkeep)).symm⟩
  | added hnone => rw [h] at hnone; cases hnone
  | evicted hnone => rw [h] at hnone; cases hnone

theorem retain_absent (hin : InStep store) {e : IdentityEvent}
    (h : store.bySession.lookup e.sessionId = none) :
    (store.act (.retain e)).bySession.lookup e.sessionId = some e.payload := by
  show (store.retainIdentityEvent e.sessionId e.payload).bySession.lookup _ = _
  have hcases := retain_cases hin e
  generalize store.retainIdentityEvent e.sessionId e.payload = store' at hcases
  cases hcases with
  | kept hkeep =>
    rw [keepsIncoming, h] at hkeep
    cases hkeep
  | replaced hsome => rw [h] at hsome; cases hsome
  | added => exact AList.lookup_insert _
  | @evicted oldest rest _ horder =>
    have hne : e.sessionId ≠ oldest := by
      rintro heq
      refine hin.absent_iff.mpr h ?_
      rw [horder, heq]
      exact mem_cons_self
    rw [AList.lookup_erase_ne hne]
    exact AList.lookup_insert _

theorem act_other {a : RetentionAction} {d d' : Json} (h : store.bySession.lookup sessionId = some d)
    (h' : (store.act a).bySession.lookup sessionId = some d')
    (hother : ∀ e, a = .retain e → e.sessionId ≠ sessionId) : d' = d := by
  cases a with
  | retain e =>
    rcases retained_cases h' with hold | ⟨-, hid, -⟩
    · exact some.inj (hold.symm.trans h)
    · exact absurd hid.symm (hother e rfl)
  | ack => exact some.inj ((ack_lookup h').symm.trans h)

end

def received (sessionId : String) (actions : List RetentionAction) : List IdentityEvent :=
  actions.filterMap fun
    | .retain e => if e.sessionId = sessionId then some e else none
    | .ack _ => none

theorem received_self (e : IdentityEvent) (actions : List RetentionAction) :
    received e.sessionId (.retain e :: actions) = e :: received e.sessionId actions :=
  filterMap_cons_some (if_pos rfl)

def Holds (sessionId : String) (store : IdentityEventStore) : Prop :=
  (store.bySession.lookup sessionId).isSome

/-- **While a session has an event, it has one of the best source that came in for it.** -/
theorem held_max {sessionId : String} (actions : List RetentionAction) :
    ∀ {store : IdentityEventStore}, InStep store → ∀ held : IdentityEvent,
      store.bySession.lookup sessionId = some held.payload →
      Along act (Holds sessionId) store actions →
      ∃ e : IdentityEvent,
        (run act store actions).bySession.lookup sessionId = some e.payload ∧
        e.priority = ((received sessionId actions).map IdentityEvent.priority).foldl max
          held.priority := by
  induction actions with
  | nil => exact fun _ held h _ => ⟨held, h, rfl⟩
  | cons a actions ih =>
    intro store hin held h halong
    have hstill : Holds sessionId (store.act a) := halong.2.head
    obtain ⟨d, hd⟩ := isSome_iff_exists.mp hstill
    by_cases hown : ∃ e, a = .retain e ∧ e.sessionId = sessionId
    · obtain ⟨e, rfl, rfl⟩ := hown
      obtain ⟨e', he', hmax⟩ := retain_same hin e h
      obtain ⟨e'', he'', hpriority⟩ := ih (act_inStep _ hin) e' he' halong.2
      refine ⟨e'', he'', hpriority.trans ?_⟩
      rw [hmax, received_self]
      rfl
    obtain rfl := act_other h hd fun e he hid => hown ⟨e, he, hid⟩
    obtain ⟨e'', he'', hpriority⟩ := ih (act_inStep _ hin) held hd halong.2
    refine ⟨e'', he'', hpriority.trans ?_⟩
    have hnone : received sessionId (a :: actions) = received sessionId actions := by
      cases a with
      | retain e => exact filterMap_cons_none (if_neg fun hid => hown ⟨e, rfl, hid⟩)
      | ack => rfl
    rw [hnone]

/-! ## the order -/

/-- the session has had an event since this one came in -/
structure Inserted (actions : List RetentionAction) (sessionId : String)
    (before : List RetentionAction) (e : IdentityEvent) (after : List RetentionAction) : Prop where
  split : actions = before ++ .retain e :: after
  session : e.sessionId = sessionId
  absent : ¬ Holds sessionId (run act {} before)
  held : Along act (Holds sessionId) (run act {} (before ++ [.retain e])) after

theorem empty_inStep : InStep {} where
  keys := .refl _
  bound := Nat.zero_le _
  events := nofun

theorem run_inStep (actions : List RetentionAction) : InStep (run act {} actions) :=
  run_inv (fun _ a h => act_inStep a h) empty_inStep actions

section
variable {actions before after : List RetentionAction} {a : RetentionAction} {sessionId : String}
  {e : IdentityEvent}

theorem Inserted.cases (h : Inserted (actions ++ [a]) sessionId before e after) :
    before = actions ∧ ¬ Holds sessionId (run act {} actions) ∨
      Holds sessionId (run act {} actions) ∧ ∃ after', Inserted actions sessionId before e after' := by
  obtain ⟨hsplit, hsession, habsent, hheld⟩ := h
  rcases eq_nil_or_concat after with rfl | ⟨after', last, rfl⟩
  · obtain ⟨rfl, -⟩ := append_inj' hsplit rfl
    exact .inl ⟨rfl, habsent⟩
  rw [concat_eq_append] at hsplit hheld
  rw [← cons_append, ← append_assoc] at hsplit
  obtain ⟨rfl, -⟩ := append_inj' hsplit rfl
  have hheld' := (along_snoc.mp hheld).1
  refine .inr ⟨?_, after', rfl, hsession, habsent, hheld'⟩
  have hlast := hheld'.last
  rwa [← run_append, append_assoc] at hlast

theorem Inserted.snoc (h : Inserted actions sessionId before e after)
    (hstill : Holds sessionId (run act {} (actions ++ [a]))) :
    Inserted (actions ++ [a]) sessionId before e (after ++ [a]) := by
  obtain ⟨rfl, hsession, habsent, hheld⟩ := h
  refine ⟨?_, hsession, habsent, along_snoc.mpr ⟨hheld, ?_⟩⟩
  · rw [append_assoc, cons_append]
  · rw [← run_append, append_assoc, singleton_append]
    rwa [append_assoc, cons_append] at hstill

theorem act_new {store : IdentityEventStore} (h : ¬ Holds sessionId store)
    (h' : Holds sessionId (store.act a)) : ∃ e, a = .retain e ∧ e.sessionId = sessionId := by
  obtain ⟨d, hd⟩ := isSome_iff_exists.mp h'
  cases a with
  | retain e =>
    rcases retained_cases hd with hold | ⟨-, hid, -⟩
    · exact absurd (isSome_of_eq_some hold) h
    · exact ⟨e, rfl, hid.symm⟩
  | ack => exact absurd (isSome_of_eq_some (ack_lookup hd)) h

theorem exists_inserted (actions : List RetentionAction) :
    ∀ sessionId, Holds sessionId (run act {} actions) →
      ∃ before e after, Inserted actions sessionId before e after := by
  induction actions using reverseRec with
  | nil => exact nofun
  | append_singleton actions a ih =>
    intro sessionId h
    by_cases hold : Holds sessionId (run act {} actions)
    · obtain ⟨before, e, after, hinserted⟩ := ih sessionId hold
      exact ⟨before, e, _, hinserted.snoc h⟩
    have hnew := h
    rw [run_snoc] at hnew
    obtain ⟨e, rfl, hid⟩ := act_new hold hnew
    exact ⟨actions, e, [], rfl, hid, hold, h⟩

/-- the first session has had its event for longer -/
def Earlier (actions : List RetentionAction) (s u : String) : Prop :=
  ∀ before e after before' e' after', Inserted actions s before e after →
    Inserted actions u before' e' after' → before.length < before'.length

theorem act_order {store : IdentityEventStore} (hin : InStep store) (a : RetentionAction) :
    (store.act a).order.Sublist store.order ∨
      ∃ s order, ¬ Holds s store ∧ order.Sublist store.order ∧
        (store.act a).order = order ++ [s] := by
  cases a with
  | retain e =>
    show List.Sublist (store.retainIdentityEvent e.sessionId e.payload).order _ ∨ ∃ s order,
      _ ∧ _ ∧ (store.retainIdentityEvent e.sessionId e.payload).order = _
    have hcases := retain_cases hin e
    generalize store.retainIdentityEvent e.sessionId e.payload = store' at hcases
    cases hcases with
    | kept => exact .inl (.refl _)
    | replaced => exact .inl (.refl _)
    | added h =>
      refine .inr ⟨e.sessionId, store.order, ?_, .refl _, rfl⟩
      rw [Holds, h]
      exact Bool.false_ne_true
    | @evicted oldest rest h horder =>
      refine .inr ⟨e.sessionId, rest, ?_, horder ▸ sublist_cons_self _ _, rfl⟩
      rw [Holds, h]
      exact Bool.false_ne_true
  | ack keys =>
    refine .inl ?_
    clear hin
    induction keys generalizing store with
    | nil => exact .refl _
    | cons key keys ih =>
      refine ih.trans ?_
      unfold ackIdentityEvent
      split
      · exact filter_sublist
      · exact .refl _

/-- **The queue is in the order in which the events came in.** -/
theorem order_sorted (actions : List RetentionAction) :
    (run act {} actions).order.Pairwise (Earlier actions) := by
  induction actions using reverseRec with
  | nil => exact .nil
  | append_singleton actions a ih =>
    have hin := run_inStep actions
    have hkept : (run act {} actions).order.Pairwise (Earlier (actions ++ [a])) := by
      refine ih.imp_of_mem fun hs hu hearlier => ?_
      intro before e after before' e' after' h h'
      rcases h.cases with ⟨-, habsent⟩ | ⟨-, _, h⟩
      · exact absurd (hin.mem_iff.mp hs) habsent
      · rcases h'.cases with ⟨-, habsent⟩ | ⟨-, _, h'⟩
        · exact absurd (hin.mem_iff.mp hu) habsent
        · exact hearlier _ _ _ _ _ _ h h'
    rw [run_snoc]
    rcases act_order hin a with hsub | ⟨u, order, hnew, hsub, heq⟩
    · exact hkept.sublist hsub
    rw [heq]
    refine pairwise_append.mpr ⟨hkept.sublist hsub, pairwise_singleton _ _, ?_⟩
    intro s hs u' hu before e after before' e' after' h h'
    obtain rfl := mem_singleton.mp hu
    rcases h.cases with ⟨-, habsent⟩ | ⟨-, _, h⟩
    · exact absurd (hin.mem_iff.mp (hsub.subset hs)) habsent
    rcases h'.cases with ⟨rfl, -⟩ | ⟨hold, -⟩
    · rw [h.split, length_append, length_cons]
      omega
    · exact absurd hold hnew

end

section
variable {store : IdentityEventStore}

theorem evicted_oldest {actions : List RetentionAction} {e : IdentityEvent} {s u : String}
    (hheld : Holds s (run act {} actions)) (hgone : ¬ Holds s (run act {} (actions ++ [.retain e])))
    (hother : Holds u (run act {} actions)) (hne : u ≠ s) :
    Earlier actions s u ∧ (run act {} actions).order.length = maxRetainedIdentityEvents := by
  have hin := run_inStep actions
  have hsorted := order_sorted actions
  have hu := hin.mem_iff.mpr hother
  rw [run_snoc] at hgone
  generalize run act {} actions = store at *
  replace hgone : ¬ Holds s (store.retainIdentityEvent e.sessionId e.payload) := hgone
  have hcases := retain_cases hin e
  generalize store.retainIdentityEvent e.sessionId e.payload = store' at hcases hgone
  have hinserted : Holds s ⟨store.bySession.insert e.sessionId e.payload, []⟩ := by
    rw [Holds, AList.lookup_isSome, AList.mem_insert]
    exact .inr (AList.lookup_isSome.mp hheld)
  cases hcases with
  | kept => exact absurd hheld hgone
  | replaced => exact absurd hinserted hgone
  | added => exact absurd hinserted hgone
  | @evicted oldest rest h horder hfull =>
    obtain rfl : s = oldest := by
      by_contra hs'
      refine hgone ?_
      rw [Holds, AList.lookup_erase_ne hs']
      exact hinserted
    rw [horder] at hsorted hu
    exact ⟨(pairwise_cons.mp hsorted).1 u ((mem_cons.mp hu).resolve_left hne), hfull⟩

theorem retain_again {e : IdentityEvent}
    (h : store.bySession.lookup e.sessionId = some e.payload) : store.act (.retain e) = store := by
  show store.retainIdentityEvent e.sessionId e.payload = store
  have hkeep : store.keepsIncoming e.sessionId e.payload = false := by
    unfold keepsIncoming
    rw [h]
    dsimp only
    rw [e.source_eq, e.resume_eq]
    simp [shouldRetainIncoming]
  unfold retainIdentityEvent
  rw [hkeep]
  rfl

end

/-- **What holds after every run** of events and acknowledgements. -/
theorem retention (actions : List RetentionAction) :
    -- the queue and the map
    ((run act {} actions).order.Nodup ∧
      (∀ s, s ∈ (run act {} actions).order ↔ Holds s (run act {} actions)) ∧
      (run act {} actions).order.length ≤ maxRetainedIdentityEvents) ∧
    -- what is evicted
    (∀ s, Holds s (run act {} actions) → ∃ before e after, Inserted actions s before e after) ∧
    (∀ e s u, Holds s (run act {} actions) → ¬ Holds s (run act {} (actions ++ [.retain e])) →
      Holds u (run act {} actions) → u ≠ s → Earlier actions s u) ∧
    -- the best source since the event has come in, and no worse one after it
    (∀ s before e after, Inserted actions s before e after → ∃ e' : IdentityEvent,
      (run act {} actions).bySession.lookup s = some e'.payload ∧
      e'.priority = ((received s after).map IdentityEvent.priority).foldl max e.priority) ∧
    (∀ s a d d', (run act {} actions).bySession.lookup s = some d →
      (run act {} (actions ++ [a])).bySession.lookup s = some d' →
        payloadPriority d ≤ payloadPriority d') ∧
    -- an event replayed
    (∀ e : IdentityEvent, (run act {} actions).bySession.lookup e.sessionId = some e.payload →
      run act {} (actions ++ [.retain e]) = run act {} actions) ∧
    -- what is acknowledged
    ∀ keys s d, (run act {} actions).bySession.lookup s = some d →
      ¬ Holds s (run act {} (actions ++ [.ack keys])) →
        ∃ r, (s, r) ∈ keys ∧ d.str "resumeSessionId" = some r := by
  have hin := run_inStep actions
  refine ⟨⟨hin.nodup, fun s => hin.mem_iff, hin.bound⟩, exists_inserted actions,
    fun e s u hheld hgone hother hne => (evicted_oldest hheld hgone hother hne).1,
    fun s before e after h => ?_, fun s a d d' hd hd' => ?_, fun e he => ?_,
    fun keys s d hd hgone => ?_⟩
  · obtain ⟨rfl, rfl, habsent, hheld⟩ := h
    have hfirst : (run act {} (before ++ [.retain e])).bySession.lookup e.sessionId =
        some e.payload := by
      rw [run_snoc]
      exact retain_absent (run_inStep before) (not_isSome_iff_eq_none.mp habsent)
    obtain ⟨e', he', hmax⟩ := held_max after (run_inStep _) e hfirst hheld
    rw [← run_append, append_assoc] at he'
    exact ⟨e', he', hmax⟩
  · rw [run_snoc] at hd'
    obtain ⟨held, rfl, rfl⟩ := hin.events s d hd
    by_cases hown : ∃ e, a = .retain e ∧ e.sessionId = held.sessionId
    · obtain ⟨e, rfl, hid⟩ := hown
      rw [← hid] at hd hd'
      obtain ⟨e', he', hmax⟩ := retain_same hin e hd
      cases he'.symm.trans hd'
      show held.priority ≤ e'.priority
      rw [hmax]
      exact Nat.le_max_left _ _
    · rw [act_other hd hd' fun e he hid => hown ⟨e, he, hid⟩]
  · rw [run_snoc]
    exact retain_again he
  · rw [run_snoc] at hgone
    exact ack_dropped hd (not_isSome_iff_eq_none.mp hgone)

/-! ## an event evicted -/

def eventOf (sessionId source resumeId : String) : IdentityEvent where
  sessionId := sessionId
  source := source
  resumeId := resumeId
  payload := .object
    [("sessionId", .string sessionId), ("source", .string source),
      ("resumeSessionId", .string resumeId)]
  session_eq := by rfl
  source_eq := by rfl
  resume_eq := by rfl

def manySessions (k : Nat) : String := String.ofList (List.replicate (k + 1) 'x')

theorem manySessions_injective : Function.Injective manySessions := by
  intro i j h
  have hlen := congrArg (fun s => s.toList.length) h
  simpa [manySessions] using hlen

theorem manySessions_ne (k : Nat) : manySessions k ≠ "s" := by
  intro h
  have hhead := congrArg (fun s => s.toList.head?) h
  simp [manySessions, replicate_succ] at hhead

/-- one event for the session `s`, and one for each of `k` others -/
def others (k : Nat) : List RetentionAction :=
  .retain (eventOf "s" "manual" "r") ::
    (List.range k).map fun i => .retain (eventOf (manySessions i) "issued" "r")

theorem others_succ (k : Nat) :
    others (k + 1) = others k ++ [.retain (eventOf (manySessions k) "issued" "r")] := by
  rw [others, range_succ, map_append]
  rfl

theorem retain_order {store : IdentityEventStore} (hin : InStep store) {e : IdentityEvent}
    (h : e.sessionId ∉ store.order) :
    (store.act (.retain e)).order =
      if store.order.length < maxRetainedIdentityEvents then store.order ++ [e.sessionId]
      else store.order.tail ++ [e.sessionId] := by
  have hnone := hin.absent_iff.mp h
  show (store.retainIdentityEvent e.sessionId e.payload).order = _
  have hcases := retain_cases hin e
  generalize store.retainIdentityEvent e.sessionId e.payload = store' at hcases
  cases hcases with
  | kept hkeep =>
    rw [keepsIncoming, hnone] at hkeep
    cases hkeep
  | replaced hsome => rw [hnone] at hsome; cases hsome
  | added _ hroom => rw [if_pos hroom]
  | evicted _ horder hfull => rw [if_neg (hfull ▸ Nat.lt_irrefl _), horder, tail_cons]

theorem others_new {k : Nat} :
    manySessions k ∉ "s" :: (List.range k).map manySessions := by
  intro hmem
  rcases mem_cons.mp hmem with hid | hmem
  · exact manySessions_ne k hid
  · obtain ⟨i, hi, hid⟩ := mem_map.mp hmem
    exact absurd (manySessions_injective hid ▸ mem_range.mp hi) (Nat.lt_irrefl _)

theorem others_order {k : Nat} (h : k < maxRetainedIdentityEvents) :
    (run act {} (others k)).order = "s" :: (List.range k).map manySessions := by
  induction k with
  | zero => rfl
  | succ k ih =>
    have hold := ih (Nat.lt_of_succ_lt h)
    have hroom : (run act {} (others k)).order.length < maxRetainedIdentityEvents := by
      rw [hold, length_cons, length_map, length_range]
      exact h
    rw [others_succ, run_snoc, retain_order (run_inStep _) (hold ▸ others_new), if_pos hroom, hold,
      range_succ, map_append]
    rfl

theorem others_full : ¬ Holds "s" (run act {} (others maxRetainedIdentityEvents)) := by
  have hlast : maxRetainedIdentityEvents = 1023 + 1 := rfl
  have hold := others_order (k := 1023) (by decide)
  have hfull : ¬ (run act {} (others 1023)).order.length < maxRetainedIdentityEvents := by
    rw [hold, length_cons, length_map, length_range]
    decide
  intro hheld
  have hmem := (run_inStep _).mem_iff.mpr hheld
  rw [hlast, others_succ, run_snoc, retain_order (run_inStep _) (hold ▸ others_new), if_neg hfull,
    hold, tail_cons] at hmem
  rcases mem_append.mp hmem with hmem | hmem
  · obtain ⟨i, -, hid⟩ := List.mem_map.mp hmem
    exact manySessions_ne i hid
  · exact manySessions_ne 1023 (mem_singleton.mp hmem).symm

/-- no session is acknowledged, and the priority goes from that of `manual` to that of `rescue` -/
theorem evicted_decreases :
    ¬ ∀ (actions actions' : List RetentionAction) (s : String) (d d' : Json),
      (∀ keys, .ack keys ∉ actions') → (run act {} actions).bySession.lookup s = some d →
        (run act {} (actions ++ actions')).bySession.lookup s = some d' →
          payloadPriority d ≤ payloadPriority d' := by
  intro h
  have hback := retain_absent (e := eventOf "s" "rescue" "r") (run_inStep _)
    (not_isSome_iff_eq_none.mp others_full)
  rw [← run_snoc act, others, cons_append] at hback
  have hle := h [.retain (eventOf "s" "manual" "r")]
    (((range maxRetainedIdentityEvents).map fun i =>
      .retain (eventOf (manySessions i) "issued" "r")) ++ [.retain (eventOf "s" "rescue" "r")])
    "s" (eventOf "s" "manual" "r").payload (eventOf "s" "rescue" "r").payload ?_ ?_ ?_
  · exact absurd hle (by decide)
  · intro keys hmem
    rcases mem_append.mp hmem with hmem | hmem
    · obtain ⟨i, -, hi⟩ := List.mem_map.mp hmem
      cases hi
    · cases mem_singleton.mp hmem
  · exact retain_absent empty_inStep rfl
  · rw [singleton_append]
    exact hback

end IdentityEventStore

end CcPanes

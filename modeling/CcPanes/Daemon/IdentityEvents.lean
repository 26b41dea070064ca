import CcPanes.Foundation.FiniteMap
import CcPanes.Foundation.Json

/-!
# Retained identity events

The daemon keeps for every session the last event that gave it a resume id, until the desktop
acknowledges it (`ws_emitter.rs`).  Which event stays is decided by the sources
(`resume_identity.rs`).
-/

namespace CcPanes

def sourcePriority (source : String) : Nat :=
  match source with
  | "manual" => 40
  | "issued" | "osc-title" => 30
  | "rollout-scan" | "backfill" | "pi-session-file" | "cursor-chat-scan" => 10
  | "rescue" => 5
  | _ => 0

def shouldRetainIncoming (existingSource existingResumeId : Option String)
    (incomingSource incomingResumeId : String) : Bool :=
  match existingSource, existingResumeId with
  | some source, some resumeId =>
    if sourcePriority incomingSource > sourcePriority source then true
    else sourcePriority incomingSource = sourcePriority source && resumeId ≠ incomingResumeId
  | _, _ => true

/-- `payload.get(key).and_then(Value::as_str)` -/
def Json.str (payload : Json) (key : String) : Option String := (payload.get key).bind Json.asStr

/-- `identity_key` -/
def identityKey (payload : Json) : Option (String × String) := do
  let sessionId ← payload.str "sessionId"
  let resumeId ← payload.str "resumeSessionId"
  some (sessionId, resumeId)

def maxRetainedIdentityEvents : Nat := 1024

structure IdentityEventStore where
  bySession : FiniteMap String Json := ∅
  order : List String := []

/-- the events beyond the limit go, the oldest first -/
def evict (bySession : FiniteMap String Json) : List String → IdentityEventStore
  | [] => ⟨bySession, []⟩
  | evicted :: order =>
    if (evicted :: order).length > maxRetainedIdentityEvents then
      evict (bySession.erase evicted) order
    else ⟨bySession, evicted :: order⟩

namespace IdentityEventStore

def keepsIncoming (store : IdentityEventStore) (sessionId : String) (payload : Json) : Bool :=
  match store.bySession.lookup sessionId with
  | some existing =>
    shouldRetainIncoming (existing.str "source") (existing.str "resumeSessionId")
      ((payload.str "source").getD "") ((payload.str "resumeSessionId").getD "")
  | none => true

def retainIdentityEvent (store : IdentityEventStore) (sessionId : String) (payload : Json) :
    IdentityEventStore :=
  if store.keepsIncoming sessionId payload then
    let order := if (store.bySession.lookup sessionId).isNone then store.order ++ [sessionId]
      else store.order
    evict (store.bySession.insert sessionId payload) order
  else store

/-- the acknowledgement names the resume id that is retained for the session -/
def ackMatches (store : IdentityEventStore) (key : String × String) : Bool :=
  ((store.bySession.lookup key.1).bind (·.str "resumeSessionId")) = some key.2

def ackIdentityEvent (store : IdentityEventStore) (key : String × String) : IdentityEventStore :=
  if store.ackMatches key then
    ⟨store.bySession.erase key.1, store.order.filter (· ≠ key.1)⟩
  else store

def ackIdentityEvents (store : IdentityEventStore) (keys : List (String × String)) :
    IdentityEventStore :=
  keys.foldl ackIdentityEvent store

def identitySnapshot (store : IdentityEventStore) : List Json :=
  store.order.filterMap store.bySession.lookup

/-! ## what is retained -/

variable {store : IdentityEventStore} {sessionId s : String} {payload d : Json}

theorem evict_lookup {bySession : FiniteMap String Json} {order : List String}
    (h : (evict bySession order).bySession.lookup s = some d) : bySession.lookup s = some d := by
  induction order generalizing bySession with
  | nil => exact h
  | cons evicted order ih =>
    rw [evict] at h
    by_cases hlong : (evicted :: order).length > maxRetainedIdentityEvents
    · rw [if_pos hlong] at h
      exact (FiniteMap.lookup_erase_eq_some_iff.mp (ih h)).2
    · rw [if_neg hlong] at h
      exact h

theorem retained_cases
    (h : (store.retainIdentityEvent sessionId payload).bySession.lookup s = some d) :
    store.bySession.lookup s = some d ∨
      store.keepsIncoming sessionId payload = true ∧ s = sessionId ∧ d = payload := by
  rw [retainIdentityEvent] at h
  by_cases hkeep : store.keepsIncoming sessionId payload = true
  · rw [if_pos hkeep] at h
    rcases FiniteMap.lookup_insert_eq_some_iff.mp (evict_lookup h) with ⟨rfl, rfl⟩ | ⟨-, h⟩
    · exact .inr ⟨hkeep, rfl, rfl⟩
    · exact .inl h
  · rw [if_neg hkeep] at h
    exact .inl h

theorem ackIdentityEvent_lookup {key : String × String}
    (h : (store.ackIdentityEvent key).bySession.lookup s = some d) :
    store.bySession.lookup s = some d := by
  rw [ackIdentityEvent] at h
  by_cases hmatch : store.ackMatches key = true
  · rw [if_pos hmatch] at h
    exact (FiniteMap.lookup_erase_eq_some_iff.mp h).2
  · rw [if_neg hmatch] at h
    exact h

theorem ack_lookup {keys : List (String × String)}
    (h : (store.ackIdentityEvents keys).bySession.lookup s = some d) :
    store.bySession.lookup s = some d := by
  induction keys generalizing store with
  | nil => exact h
  | cons key keys ih => exact ackIdentityEvent_lookup (ih h)

theorem ack_dropped {keys : List (String × String)} (h : store.bySession.lookup s = some d)
    (hgone : (store.ackIdentityEvents keys).bySession.lookup s = none) :
    ∃ r, (s, r) ∈ keys ∧ d.str "resumeSessionId" = some r := by
  induction keys generalizing store with
  | nil =>
    rw [show store.ackIdentityEvents [] = store from rfl, h] at hgone
    cases hgone
  | cons key keys ih =>
    by_cases hmatch : store.ackMatches key = true
    · by_cases hs : s = key.1
      · subst hs
        refine ⟨key.2, List.mem_cons_self, ?_⟩
        rw [ackMatches, decide_eq_true_eq, h] at hmatch
        exact hmatch
      have hstill : (store.ackIdentityEvent key).bySession.lookup s = some d := by
        rw [ackIdentityEvent, if_pos hmatch]
        exact FiniteMap.lookup_erase_eq_some_iff.mpr ⟨hs, h⟩
      obtain ⟨r, hr, hd⟩ := ih hstill hgone
      exact ⟨r, List.mem_cons_of_mem _ hr, hd⟩
    · have hsame : store.ackIdentityEvent key = store := by
        rw [ackIdentityEvent, if_neg hmatch]
      have hgone' : (store.ackIdentityEvents keys).bySession.lookup s = none := by
        rw [← hsame]
        exact hgone
      obtain ⟨r, hr, hd⟩ := ih h hgone'
      exact ⟨r, List.mem_cons_of_mem _ hr, hd⟩

end IdentityEventStore

end CcPanes

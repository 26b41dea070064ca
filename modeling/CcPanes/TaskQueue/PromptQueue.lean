import CcPanes.Foundation.DensePositions
import CcPanes.TaskQueue.Models

/-!
# The queue of prompts

What a task queue is for: the prompts of one session wait in line, and only the first of them can
be anything else than queued.  It is being dispatched under a token, or its submission failed, or
it is unknown whether it arrived.  A `PromptQueue` cannot hold a prompt twice, nor too many.
-/

namespace CcPanes

open DensePositions List

inductive HeadPhase where
  | queued
  | dispatching (token : String)
  | failed
  | deliveryUnknown

namespace HeadPhase

variable {p : HeadPhase}

def state : HeadPhase → QueueItemState
  | queued => .queued
  | dispatching _ => .dispatching
  | failed => .failed
  | deliveryUnknown => .deliveryUnknown

def token : HeadPhase → Option String
  | dispatching token => some token
  | _ => none

theorem state_dispatching (h : p.state = .dispatching) : ∃ t, p = .dispatching t := by
  cases p with
  | dispatching t => exact ⟨t, rfl⟩
  | _ => cases h

theorem token_eq_some {t : String} (h : p.token = some t) : p = .dispatching t := by
  cases p with
  | dispatching t' =>
    cases h
    rfl
  | _ => cases h

theorem token_eq_none : p.token = none ↔ p.state ≠ .dispatching := by
  cases p <;> simp [token, state]

theorem state_queued (h : p.state = .queued) : p = .queued := by
  cases p with
  | queued => rfl
  | _ => cases h

end HeadPhase

structure PromptQueue where
  items : List String
  head : HeadPhase
  nodup : items.Nodup
  short : items.length ≤ taskQueueMaxItems
  blank : items = [] → head = .queued

namespace PromptQueue

variable {q : PromptQueue} {id : String}

def empty : PromptQueue := ⟨[], .queued, nodup_nil, by decide, fun _ => rfl⟩

def isHead (q : PromptQueue) (id : String) : Prop := q.items.head? = some id

instance (q : PromptQueue) (id : String) : Decidable (q.isHead id) :=
  inferInstanceAs (Decidable (q.items.head? = some id))

def add (q : PromptQueue) (id : String) : PromptQueue :=
  if h : id ∉ q.items ∧ q.items.length < taskQueueMaxItems then
    { items := q.items ++ [id]
      head := q.head
      nodup := nodup_append.mpr ⟨q.nodup, nodup_singleton id, fun a ha b hb hab =>
        h.1 (mem_singleton.mp hb ▸ hab ▸ ha)⟩
      short := by
        rw [length_append]
        exact h.2
      blank hnil := absurd hnil (by simp) }
  else q

theorem erase_nil_isHead (hid : id ∈ q.items) (h : q.items.erase id = []) : q.isHead id := by
  unfold isHead
  cases hq : q.items with
  | nil =>
    rw [hq] at hid
    cases hid
  | cons x =>
    rw [hq] at h
    by_cases hx : x = id
    · rw [hx]
      rfl
    · rw [erase_cons_tail (by simpa using hx)] at h
      cases h

/-- a prompt leaves the queue; the next one in line starts out queued -/
def remove (q : PromptQueue) (id : String) : PromptQueue where
  items := q.items.erase id
  head := if q.isHead id then .queued else q.head
  nodup := q.nodup.erase id
  short := Nat.le_trans length_erase_le q.short
  blank hnil := by
    by_cases hid : id ∈ q.items
    · exact if_pos (erase_nil_isHead hid hnil)
    · rw [erase_of_not_mem hid] at hnil
      rw [q.blank hnil]
      exact ite_self _

/-- everything but a prompt that is being dispatched leaves the queue -/
def clear (q : PromptQueue) : PromptQueue :=
  match hd : q.head with
  | .dispatching t =>
    { items := q.items.take 1
      head := .dispatching t
      nodup := q.nodup.sublist (take_sublist 1 q.items)
      short := Nat.le_trans (length_take_le' 1 q.items) q.short
      blank hnil := by
        have hitems : q.items = [] := by
          cases hq : q.items with
          | nil => rfl
          | cons =>
            rw [hq] at hnil
            cases hnil
        exact hd.symm.trans (q.blank hitems) }
  | _ => empty

def setHead (q : PromptQueue) (phase : HeadPhase) : PromptQueue :=
  if h : q.items = [] then q else ⟨q.items, phase, q.nodup, q.short, fun hnil => absurd hnil h⟩

/-- an interrupted dispatch leaves it unknown whether the prompt arrived -/
def recover (q : PromptQueue) : PromptQueue :=
  match q.head with
  | .dispatching _ => q.setHead .deliveryUnknown
  | _ => q

/-! ## what the operations do to the line -/

section

theorem add_items (hid : id ∉ q.items) (hlen : q.items.length < taskQueueMaxItems) :
    (q.add id).items = q.items ++ [id] ∧ (q.add id).head = q.head := by
  unfold add
  rw [dif_pos ⟨hid, hlen⟩]
  exact ⟨rfl, rfl⟩

theorem setHead_items (h : q.isHead id) (phase : HeadPhase) :
    (q.setHead phase).items = q.items ∧ (q.setHead phase).head = phase := by
  have hne : q.items ≠ [] := by
    intro hnil
    unfold isHead at h
    rw [hnil] at h
    cases h
  unfold setHead
  rw [dif_neg hne]
  exact ⟨rfl, rfl⟩

theorem isHead.mem (h : q.isHead id) : id ∈ q.items := mem_of_mem_head? h

theorem isHead.unique {id' : String} (h : q.isHead id) (h' : q.isHead id') : id = id' :=
  Option.some.inj (h.symm.trans h')

theorem isHead.cons (h : q.isHead id) : ∃ rest, q.items = id :: rest := by
  unfold isHead at h
  cases hq : q.items with
  | nil =>
    rw [hq] at h
    cases h
  | cons x rest =>
    rw [hq] at h
    cases h
    exact ⟨rest, rfl⟩

theorem isHead.add (h : q.isHead id) (id' : String) : (q.add id').isHead id := by
  obtain ⟨rest, hq⟩ := h.cons
  unfold PromptQueue.add
  split
  · show (q.items ++ [id']).head? = some id
    rw [hq]
    rfl
  · exact h

theorem isHead.setHead {id' : String} (h : q.isHead id) (phase : HeadPhase) :
    (q.setHead phase).isHead id' ↔ q.isHead id' := by
  unfold isHead
  rw [(setHead_items h phase).1]

theorem clear_of_dispatching {t : String} (h : q.head = .dispatching t) :
    q.clear.items = q.items.take 1 ∧ q.clear.head = .dispatching t := by
  unfold clear
  split
  · next t' ht =>
    rw [ht] at h
    exact ⟨rfl, h⟩
  · next hno => exact absurd h (hno t)

theorem clear_of_not_dispatching (h : ∀ t, q.head ≠ .dispatching t) : q.clear = empty := by
  unfold clear
  split
  · next t ht => exact absurd ht (h t)
  · rfl

theorem recover_of_dispatching {t : String} (h : q.head = .dispatching t) :
    q.recover = q.setHead .deliveryUnknown := by
  unfold recover
  rw [h]

theorem recover_of_not_dispatching (h : ∀ t, q.head ≠ .dispatching t) : q.recover = q := by
  unfold recover
  split
  · next t ht => exact absurd ht (h t)
  · rfl

theorem exists_isHead {t : String} (h : q.head = .dispatching t) : ∃ id, q.isHead id := by
  cases hq : q.items with
  | nil =>
    rw [q.blank hq] at h
    cases h
  | cons x =>
    refine ⟨x, ?_⟩
    unfold isHead
    rw [hq]
    rfl

end

/-! ## columns -/

abbrev ItemKey := String × Nat × QueueItemState × Option String

/-- the columns of the prompt `e.1` at position `e.2` -/
def keyAt (head : HeadPhase) (e : String × Nat) : ItemKey :=
  (e.1, e.2, if e.2 = 0 then head.state else .queued, if e.2 = 0 then head.token else none)

def keys (q : PromptQueue) : List ItemKey := q.items.zipIdx.map (keyAt q.head)

def closeKey (gap : Nat) (k : ItemKey) : ItemKey := (k.1, closeGap gap k.2.1, k.2.2)

theorem keys_eq {items : List String} {head : HeadPhase} (hi : q.items = items)
    (hh : q.head = head) : q.keys = items.zipIdx.map (keyAt head) := by
  unfold keys
  rw [hi, hh]

theorem keys_add (hid : id ∉ q.items) (hlen : q.items.length < taskQueueMaxItems) :
    (q.add id).keys = q.keys ++ [(id, q.items.length, .queued, none)] := by
  obtain ⟨hitems, hhead⟩ := add_items hid hlen
  have hlast : keyAt q.head (id, q.items.length) = (id, q.items.length, .queued, none) := by
    by_cases hnil : q.items = []
    · rw [q.blank hnil, hnil]
      rfl
    · have hpos : q.items.length ≠ 0 := fun h => hnil (length_eq_zero_iff.mp h)
      unfold keyAt
      simp only [hpos, if_false]
  rw [keys_eq hitems hhead, zipIdx_append, map_append, Nat.zero_add,
    zipIdx_singleton, map_singleton, hlast]
  rfl

theorem isHead_iff_zero {p : Nat} (h : (id, p) ∈ q.items.zipIdx) : q.isHead id ↔ p = 0 := by
  rw [mk_mem_zipIdx_iff_getElem?] at h
  unfold isHead
  rw [head?_eq_getElem?]
  constructor
  · intro h0
    have hbound := (List.getElem?_eq_some_iff.mp h).1
    exact (getElem?_inj hbound q.nodup).mp (h.trans h0.symm)
  · rintro rfl
    exact h

theorem keys_remove {gap : Nat} (h : (id, gap) ∈ q.items.zipIdx) :
    (q.remove id).keys = (q.keys.filter fun k => k.1 ≠ id).map (closeKey gap) := by
  have hrest := remove_zipIdx q.nodup h
  have hkeys : (q.remove id).keys =
      ((q.items.erase id).zipIdx).map (keyAt (if q.isHead id then .queued else q.head)) := rfl
  unfold keys at hkeys ⊢
  rw [hkeys, ← hrest, filter_map, map_map, map_map]
  refine map_congr_left fun e he => ?_
  obtain ⟨hmem, hne⟩ := mem_filter.mp he
  have hne' : e.1 ≠ id := of_decide_eq_true hne
  have hpos : e.2 ≠ gap := by
    intro heq
    have h1 := mk_mem_zipIdx_iff_getElem?.mp h
    have h2 := mk_mem_zipIdx_iff_getElem?.mp (show (e.1, e.2) ∈ q.items.zipIdx from hmem)
    rw [heq, h1] at h2
    exact hne' (Option.some.inj h2).symm
  -- the new position is the first one only if the old one was, or if the head left
  show keyAt _ (e.1, closeGap gap e.2) = closeKey gap (keyAt q.head e)
  unfold keyAt closeKey closeGap
  by_cases h0 : gap = 0
  · have hhead : q.isHead id := (isHead_iff_zero h).mpr h0
    have he0 : e.2 ≠ 0 := fun hz => hpos (hz.trans h0.symm)
    simp [hhead, he0, HeadPhase.state, HeadPhase.token]
  have hhead : ¬ q.isHead id := fun hh => h0 ((isHead_iff_zero h).mp hh)
  by_cases he0 : e.2 = 0
  · simp [hhead, he0]
  · have hclose : (if e.2 > gap then e.2 - 1 else e.2) ≠ 0 := by
      split <;> omega
    simp only [hhead, if_false, hclose, he0]

theorem keys_setHead (h : q.isHead id) (phase : HeadPhase) :
    (q.setHead phase).keys =
      q.keys.map fun k => if k.1 = id then (k.1, k.2.1, phase.state, phase.token) else k := by
  obtain ⟨hitems, hhead⟩ := setHead_items h phase
  rw [keys_eq hitems hhead]
  unfold keys
  rw [map_map]
  refine map_congr_left fun e he => ?_
  have hiff : e.1 = id ↔ e.2 = 0 := by
    constructor
    · rintro rfl
      exact (isHead_iff_zero he).mp h
    intro h0
    have hhd : q.isHead e.1 := (isHead_iff_zero he).mpr h0
    unfold isHead at h hhd
    rw [h] at hhd
    exact (Option.some.inj hhd).symm
  show keyAt phase e = if e.1 = id then _ else keyAt q.head e
  by_cases h0 : e.2 = 0
  · rw [if_pos (hiff.mpr h0)]
    simp [keyAt, h0]
  · rw [if_neg fun hid => h0 (hiff.mp hid)]
    simp [keyAt, h0]

theorem keys_clear (q : PromptQueue) :
    q.clear.keys = q.keys.filter fun k => k.2.2.1 = .dispatching := by
  have hrest : ∀ (l : List String) (k : Nat), (((l.zipIdx (k + 1)).map (keyAt q.head)).filter
      fun k => k.2.2.1 = .dispatching) = [] := by
    intro l k
    refine filter_eq_nil_iff.mpr fun key hkey => ?_
    obtain ⟨e, he, rfl⟩ := mem_map.mp hkey
    have hpos : e.2 ≠ 0 := by
      have hle := le_snd_of_mem_zipIdx he
      omega
    simp [keyAt, hpos]
  by_cases hd : ∃ t, q.head = .dispatching t
  · obtain ⟨t, ht⟩ := hd
    obtain ⟨hitems, hhead⟩ := clear_of_dispatching ht
    rw [keys_eq hitems hhead]
    unfold keys
    cases hq : q.items with
    | nil => rfl
    | cons x rest =>
      rw [zipIdx_cons, map_cons, filter_cons_of_pos, hrest rest 0, ht]
      · rfl
      · simp [keyAt, ht, HeadPhase.state]
  have hd' : ∀ t, q.head ≠ .dispatching t := fun t ht => hd ⟨t, ht⟩
  have hst : q.head.state ≠ .dispatching := fun hs => hd (HeadPhase.state_dispatching hs)
  rw [clear_of_not_dispatching hd']
  unfold keys
  cases hq : q.items with
  | nil => rfl
  | cons x rest =>
    rw [zipIdx_cons, map_cons, filter_cons_of_neg, hrest rest 0]
    · rfl
    · simp [keyAt, hst]

end PromptQueue
end CcPanes

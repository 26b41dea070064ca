import Mathlib.Data.List.Nodup

/-!
# The order of arrival

A list without repetitions records who arrived, in order.
-/

namespace ArrivalOrder
open List

variable {α : Type} [DecidableEq α]

/-- `a` arrived no later than `b` -/
def Before (l : List α) (a b : α) : Prop := l.idxOf a ≤ l.idxOf b

theorem before_append {l : List α} {a b : α} (ha : a ∈ l) (hb : b ∈ l) (l' : List α) :
    Before (l ++ l') a b ↔ Before l a b := by
  unfold Before
  rw [idxOf_append_of_mem ha, idxOf_append_of_mem hb]

theorem before_last {l : List α} {a b : α} (ha : a ∈ l) (hb : b ∉ l) : Before (l ++ [b]) a b := by
  unfold Before
  rw [idxOf_append_of_mem ha, idxOf_append_of_notMem hb]
  have hlt := idxOf_lt_length_of_mem ha
  omega

theorem before_of_head {l rest : List α} {a b : α} (hl : l.Nodup) (h : (a :: rest).Sublist l)
    (hb : b ∈ a :: rest) : Before l a b := by
  induction l with
  | nil => cases h.subset hb
  | cons x l ih =>
    obtain ⟨hx, hl'⟩ := nodup_cons.mp hl
    by_cases hax : x = a
    · show (x :: l).idxOf a ≤ (x :: l).idxOf b
      rw [hax, idxOf_cons_self]
      exact Nat.zero_le _
    have h' : (a :: rest).Sublist l := by
      cases h with
      | cons _ h => exact h
      | cons_cons _ h => exact absurd rfl hax
    have hbx : x ≠ b := fun hxb => hx (hxb ▸ h'.subset hb)
    have hle : l.idxOf a ≤ l.idxOf b := ih hl' h'
    show (x :: l).idxOf a ≤ (x :: l).idxOf b
    rw [idxOf_cons_ne l hax, idxOf_cons_ne l hbx]
    omega

end ArrivalOrder

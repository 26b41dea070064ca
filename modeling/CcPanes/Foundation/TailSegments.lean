import Mathlib.Data.List.Basic

/-!
# Reading the segments of a list from its end

A list is split at a separator, and the segments are wanted from the last one back.  Where only the
end of the list is known, its first segment may not be whole: it is carried until more of the list
is there.
-/

namespace TailSegments
open List

section
variable {α : Type} [BEq α] [LawfulBEq α] (sep : α)

def carry (l : List α) : List α := (l.splitOn sep).headD []

omit [LawfulBEq α] in
theorem splitOn_eq (l : List α) : l.splitOn sep = carry sep l :: (l.splitOn sep).tail := by
  unfold carry
  cases h : l.splitOn sep with
  | nil => exact absurd h (splitOn_ne_nil sep l)
  | cons => rfl

theorem sep_not_mem_carry (l : List α) : sep ∉ carry sep l := by
  induction l with
  | nil => exact not_mem_nil
  | cons x l ih =>
    unfold carry
    rw [splitOn_cons_eq_if_modifyHead]
    by_cases hx : (x == sep) = true
    · rw [if_pos hx]
      exact not_mem_nil
    · rw [if_neg hx, splitOn_eq sep l, modifyHead_cons, headD_cons, mem_cons, not_or]
      exact ⟨fun h => hx (beq_iff_eq.mpr h.symm), ih⟩

/-- **The front joins the first segment, and leaves the others.** -/
theorem splitOn_append (front back : List α) :
    (front ++ back).splitOn sep =
      (front ++ carry sep back).splitOn sep ++ (back.splitOn sep).tail := by
  induction front with
  | nil =>
    rw [nil_append, nil_append, splitOn_eq_singleton (sep_not_mem_carry sep back)]
    exact splitOn_eq sep back
  | cons x front ih =>
    rw [cons_append, cons_append, splitOn_cons_eq_if_modifyHead, splitOn_cons_eq_if_modifyHead, ih]
    split
    · rfl
    · rw [splitOn_eq sep (front ++ carry sep back)]
      rfl

theorem carry_append (front back : List α) :
    carry sep (front ++ back) = carry sep (front ++ carry sep back) := by
  rw [carry, splitOn_append, splitOn_eq sep (front ++ carry sep back)]
  rfl

end

section
variable {σ β : Type} (f : σ → Option β)

def lastSome (segments : List σ) : Option β := segments.reverse.findSome? f

theorem lastSome_append (front back : List σ) :
    lastSome f (front ++ back) = (lastSome f back).or (lastSome f front) := by
  unfold lastSome
  rw [reverse_append, findSome?_append]

theorem lastSome_singleton (segment : σ) : lastSome f [segment] = f segment := by
  unfold lastSome
  rw [reverse_singleton, findSome?_singleton]

end

end TailSegments

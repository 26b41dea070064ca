import Mathlib.Algebra.Order.BigOperators.Group.List
import Mathlib.Algebra.Order.Group.Nat
import Mathlib.Algebra.GroupWithZero.Nat

/-!
# Lists joined by a separator
-/

namespace Separated
open List
variable {α : Type}

theorem mem_of_mem_splitOn [BEq α] [LawfulBEq α] {sep c : α} {l part : List α}
    (hpart : part ∈ l.splitOn sep) (hc : c ∈ part) : c ∈ l ∧ c ≠ sep := by
  induction l generalizing part with
  | nil =>
    rw [splitOn_nil, mem_singleton] at hpart
    rw [hpart] at hc
    cases hc
  | cons x xs ih =>
    rw [splitOn_cons_eq_if_modifyHead] at hpart
    by_cases hx : x = sep
    · rw [if_pos (beq_iff_eq.mpr hx), mem_cons] at hpart
      obtain rfl | hpart := hpart
      · cases hc
      · exact ⟨mem_cons_of_mem x (ih hpart hc).1, (ih hpart hc).2⟩
    rw [if_neg (by simpa using hx)] at hpart
    cases hsplit : xs.splitOn sep with
    | nil => exact absurd hsplit (splitOn_ne_nil sep xs)
    | cons head =>
      rw [hsplit, modifyHead_cons, mem_cons] at hpart
      rw [hsplit] at ih
      obtain rfl | hpart := hpart
      · obtain rfl | hc := mem_cons.mp hc
        · exact ⟨mem_cons_self, hx⟩
        · have h := ih mem_cons_self hc
          exact ⟨mem_cons_of_mem x h.1, h.2⟩
      · have h := ih (mem_cons_of_mem head hpart) hc
        exact ⟨mem_cons_of_mem x h.1, h.2⟩

theorem sep_notMem [BEq α] [LawfulBEq α] {sep : α} {l part : List α}
    (hpart : part ∈ l.splitOn sep) : sep ∉ part :=
  fun hmem => (mem_of_mem_splitOn hpart hmem).2 rfl

theorem mem_of_mem_intercalate {sep c : α} {parts : List (List α)}
    (h : c ∈ [sep].intercalate parts) : c = sep ∨ ∃ part ∈ parts, c ∈ part := by
  induction parts with
  | nil => cases h
  | cons part parts ih =>
    cases parts with
    | nil => exact .inr ⟨part, mem_cons_self, by simpa using h⟩
    | cons =>
      rw [intercalate_cons_cons, mem_append, mem_append, mem_singleton] at h
      rcases h with (h | h) | h
      · exact .inr ⟨part, mem_cons_self, h⟩
      · exact .inl h
      · rcases ih h with h | ⟨other, hmem, hc⟩
        · exact .inl h
        · exact .inr ⟨other, mem_cons_of_mem part hmem, hc⟩

theorem length_intercalate (sep : α) (parts : List (List α)) :
    ([sep].intercalate parts).length = (parts.map List.length).sum + (parts.length - 1) := by
  induction parts with
  | nil => rfl
  | cons part parts ih =>
    cases parts with
    | nil => simp
    | cons =>
      rw [intercalate_cons_cons, length_append, length_append, ih]
      simp only [map_cons, sum_cons, length_cons, length_nil]
      omega

theorem length_intercalate_filter (sep : α) {p : List α → Bool} {parts : List (List α)}
    (hne : parts.filter p ≠ []) (hfewer : (parts.filter p).length ≠ parts.length) :
    ([sep].intercalate (parts.filter p)).length < ([sep].intercalate parts).length := by
  have hcount := length_filter_le p parts
  have hpos := length_pos_iff.mpr hne
  have hsum : ((parts.filter p).map length).sum ≤ (parts.map length).sum :=
    (filter_sublist.map length).sum_le_sum fun _ _ => Nat.zero_le _
  rw [length_intercalate, length_intercalate]
  omega

end Separated

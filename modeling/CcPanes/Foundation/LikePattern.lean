import Mathlib.Data.List.Infix

/-!
# Texts that a `LIKE` pattern matches
-/

namespace CcPanes.LikePattern

def like : List Char → List Char → Bool
  | [], text => text.isEmpty
  | p :: pattern, text =>
    if p = '%' then text.tails.any (like pattern)
    else match text with
      | [] => false
      | c :: text => (p = '_' || p.toLower = c.toLower) && like pattern text

theorem like_nil (text : List Char) : like [] text ↔ text = [] := List.isEmpty_iff

theorem like_percent (p text : List Char) :
    like ('%' :: p) text ↔ ∃ s, s <:+ text ∧ like p s := by
  simp [like]

theorem like_cons (h : c ≠ '%') (p text : List Char) : like (c :: p) text ↔
    ∃ d rest, text = d :: rest ∧ (c = '_' ∨ c.toLower = d.toLower) ∧ like p rest := by
  cases text with
  | nil => simp [like, h]
  | cons d rest =>
    simp only [like, if_neg h, Bool.and_eq_true, Bool.or_eq_true, decide_eq_true_eq]
    exact ⟨fun hd => ⟨d, rest, rfl, hd⟩, by rintro ⟨_, _, ⟨⟩, hd⟩; exact hd⟩

theorem like_append (p q text : List Char) :
    like (p ++ q) text ↔ ∃ a b, text = a ++ b ∧ like p a ∧ like q b := by
  induction p generalizing text with
  | nil => simp [like_nil]
  | cons c p ih =>
    by_cases hc : c = '%'
    · subst hc
      simp only [List.cons_append, like_percent, ih]
      constructor
      · rintro ⟨_, ⟨skipped, rfl⟩, a, b, rfl, ha, hb⟩
        exact ⟨skipped ++ a, b, by simp, ⟨a, ⟨skipped, rfl⟩, ha⟩, hb⟩
      · rintro ⟨_, b, rfl, ⟨a, ⟨skipped, rfl⟩, ha⟩, hb⟩
        exact ⟨a ++ b, ⟨skipped, by simp⟩, a, b, rfl, ha, hb⟩
    · simp only [List.cons_append, like_cons hc, ih]
      constructor
      · rintro ⟨d, _, rfl, hd, a, b, rfl, ha, hb⟩
        exact ⟨d :: a, b, rfl, ⟨d, a, rfl, hd, ha⟩, hb⟩
      · rintro ⟨_, b, rfl, ⟨d, a, rfl, hd, ha⟩, hb⟩
        exact ⟨d, a ++ b, rfl, hd, a, b, rfl, ha, hb⟩

theorem like_within (p text : List Char) :
    like ('%' :: p ++ ['%']) text ↔ ∃ a b c, text = a ++ b ++ c ∧ like p b := by
  rw [List.cons_append, like_percent]
  simp only [like_append]
  constructor
  · rintro ⟨_, ⟨a, rfl⟩, b, c, rfl, hb, -⟩
    exact ⟨a, b, c, by simp, hb⟩
  · rintro ⟨a, b, c, rfl, hb⟩
    refine ⟨b ++ c, ⟨a, by simp⟩, b, c, rfl, hb, ?_⟩
    exact (like_percent [] c).mpr ⟨[], List.nil_suffix, rfl⟩

end CcPanes.LikePattern

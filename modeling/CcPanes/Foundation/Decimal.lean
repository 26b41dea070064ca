import Mathlib.Data.Nat.Init
import Mathlib.Algebra.Group.Nat.Defs

/-!
# Decimal numbers of one width

Numbers written with as many digits, with zeros in front, are ordered as texts as they are as
numbers.
-/

namespace Decimal
open List

def padded (k n : Nat) : List Char :=
  List.replicate (k - (Nat.toDigits 10 n).length) '0' ++ Nat.toDigits 10 n

theorem padded_self (n : Nat) : padded (Nat.toDigits 10 n).length n = Nat.toDigits 10 n := by
  rw [padded, Nat.sub_self]
  rfl

theorem padded_length {k n : Nat} (h : (Nat.toDigits 10 n).length ≤ k) :
    (padded k n).length = k := by
  rw [padded, length_append, length_replicate]
  omega

theorem padded_succ {k : Nat} (hk : 0 < k) (n : Nat) :
    padded (k + 1) n = padded k (n / 10) ++ [Nat.digitChar (n % 10)] := by
  unfold padded
  rcases Nat.lt_or_ge n 10 with h | h
  · rw [Nat.div_eq_of_lt h, Nat.mod_eq_of_lt h, Nat.toDigits_zero, Nat.toDigits_of_lt_base h]
    obtain ⟨j, rfl⟩ : ∃ j, k = j + 1 := ⟨k - 1, by omega⟩
    show replicate (j + 1) '0' ++ [n.digitChar] = (replicate j '0' ++ ['0']) ++ _
    rw [replicate_succ']
  · rw [Nat.toDigits_of_base_le (by decide) h, length_append, length_singleton,
      Nat.add_sub_add_right, append_assoc]

section
variable {l l' t t' : List Char}

theorem append_lt_append (h : l < l') (hlen : l.length = l'.length) : l ++ t < l' ++ t' := by
  induction l generalizing l' with
  | nil =>
    obtain rfl := length_eq_zero_iff.mp hlen.symm
    exact absurd h (List.lt_irrefl _)
  | cons c l ih =>
    cases l' with
    | nil => cases hlen
    | cons c' l' =>
      rcases cons_lt_cons_iff.mp h with hc | ⟨rfl, hl⟩
      · exact cons_lt_cons_iff.mpr (.inl hc)
      · exact cons_lt_cons_iff.mpr (.inr ⟨rfl, ih hl (Nat.succ.inj hlen)⟩)

end

theorem digitChar_lt {a b : Nat} (h : a < b) (hb : b < 10) : Nat.digitChar a < Nat.digitChar b := by
  have hval : (Nat.digitChar a).toNat < (Nat.digitChar b).toNat := by
    rw [Nat.toNat_digitChar_of_lt_ten (Nat.lt_trans h hb), Nat.toNat_digitChar_of_lt_ten hb]
    omega
  exact hval

/-- **The order of the texts is that of the numbers.** -/
theorem padded_lt {k : Nat} (hk : 0 < k) {a b : Nat} (h : a < b) (hb : b < 10 ^ k) :
    padded k a < padded k b := by
  induction k generalizing a b with
  | zero => exact absurd hk (Nat.lt_irrefl 0)
  | succ k ih =>
    cases k with
    | zero =>
      have hb' : b < 10 := hb
      have hone : ∀ n < 10, padded 1 n = [Nat.digitChar n] := by
        intro n hn
        rw [padded, Nat.toDigits_of_lt_base hn]
        rfl
      rw [hone a (Nat.lt_trans h hb'), hone b hb', cons_lt_cons_iff]
      exact .inl (digitChar_lt h hb')
    | succ k =>
      have hb' : b / 10 < 10 ^ (k + 1) := by
        rw [Nat.div_lt_iff_lt_mul (by decide)]
        exact hb
      rw [padded_succ (Nat.succ_pos k), padded_succ (Nat.succ_pos k)]
      rcases Nat.lt_or_ge (a / 10) (b / 10) with hlt | hge
      · refine append_lt_append (ih (Nat.succ_pos k) hlt hb') ?_
        rw [padded_length, padded_length]
        · exact (Nat.length_toDigits_le_iff (by decide) (Nat.succ_pos k)).mpr hb'
        · exact (Nat.length_toDigits_le_iff (by decide) (Nat.succ_pos k)).mpr (Nat.lt_trans hlt hb')
      have heq : a / 10 = b / 10 := Nat.le_antisymm (Nat.div_le_div_right (Nat.le_of_lt h)) hge
      rw [heq]
      refine append_left_lt (cons_lt_cons_iff.mpr (.inl (digitChar_lt ?_ ?_)))
      · omega
      · exact Nat.mod_lt _ (by decide)

end Decimal

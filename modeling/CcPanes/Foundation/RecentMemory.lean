import Mathlib.Data.List.DropRight

/-!
# A memory of the most recent entries

A list of at most `k` entries, the oldest first: a new entry pushes the oldest one out.  What it
remembers of a history `l` is the end of `l`, Mathlib's `rtake`.
-/

namespace RecentMemory
open List

variable {α : Type}

def remember (k : Nat) (memory : List α) (x : α) : List α :=
  if memory.length ≥ k then memory.tail ++ [x] else memory ++ [x]

theorem rtake_of_length_le {k : Nat} {l : List α} (h : l.length ≤ k) : l.rtake k = l := by
  unfold rtake
  rw [Nat.sub_eq_zero_of_le h, drop_zero]

theorem length_rtake (k : Nat) (l : List α) : (l.rtake k).length = min k l.length := by
  unfold rtake
  rw [length_drop]
  omega

theorem tail_rtake {k : Nat} {l : List α} (h : k < l.length) :
    (l.rtake (k + 1)).tail = l.rtake k := by
  unfold rtake
  rw [tail_drop]
  congr 1
  omega

theorem remember_rtake (k : Nat) (l : List α) (x : α) :
    remember (k + 1) (l.rtake (k + 1)) x = (l ++ [x]).rtake (k + 1) := by
  rw [rtake_concat_succ]
  unfold remember
  rw [length_rtake]
  rcases Nat.lt_or_ge k l.length with h | h
  · rw [if_pos (by omega), tail_rtake h]
  · rw [if_neg (by omega), rtake_of_length_le (by omega), rtake_of_length_le h]

end RecentMemory

import Mathlib.Data.List.Nodup

/-!
# Tables with dense positions

A table whose rows are numbered `k, k + 1, …` in order is Mathlib's `List.zipIdx`.  Removing a row
and closing the gap it leaves keeps the table numbered.
-/

namespace DensePositions
open List

variable {α : Type}

/-- one more than the largest position, `0` for the empty table -/
def nextPosition (positions : List Nat) : Nat := positions.foldr (fun p m => max (p + 1) m) 0

/-- the position `p` once position `gap` is free -/
def closeGap (gap p : Nat) : Nat := if p > gap then p - 1 else p

theorem nextPosition_zipIdx_cons (x : α) (l : List α) (k : Nat) :
    nextPosition (((x :: l).zipIdx k).map Prod.snd) = k + (l.length + 1) := by
  induction l generalizing x k with
  | nil => simp [nextPosition]
  | cons y l ih =>
    have hy := ih y (k + 1)
    show max (k + 1) (nextPosition (((y :: l).zipIdx (k + 1)).map Prod.snd)) = _
    simp only [length_cons]
    omega

theorem nextPosition_zipIdx (l : List α) : nextPosition (l.zipIdx.map Prod.snd) = l.length := by
  cases l with
  | nil => rfl
  | cons x l =>
    rw [nextPosition_zipIdx_cons]
    simp

theorem pairwise_zipIdx (l : List α) (k : Nat) :
    (l.zipIdx k).Pairwise fun a b => a.2 ≤ b.2 := by
  induction l generalizing k with
  | nil => exact List.Pairwise.nil
  | cons x l ih =>
    refine List.Pairwise.cons (fun e he => ?_) (ih (k + 1))
    have hle := le_snd_of_mem_zipIdx he
    omega

theorem map_closeGap_of_lt (l : List α) {gap k : Nat} (h : gap ≤ k) :
    (l.zipIdx (k + 1)).map (fun e => (e.1, closeGap gap e.2)) = l.zipIdx k := by
  induction l generalizing k with
  | nil => rfl
  | cons x l ih =>
    have hk : closeGap gap (k + 1) = k := by
      unfold closeGap
      rw [if_pos (by omega)]
      omega
    rw [zipIdx_cons, map_cons, ih (by omega), zipIdx_cons, hk]

theorem remove_zipIdx [DecidableEq α] {l : List α} (hl : l.Nodup) {x : α} {gap k : Nat}
    (h : (x, gap) ∈ l.zipIdx k) :
    ((l.zipIdx k).filter (fun e => e.1 ≠ x)).map (fun e => (e.1, closeGap gap e.2)) =
      (l.erase x).zipIdx k := by
  induction l generalizing k with
  | nil => cases h
  | cons y l ih =>
    obtain ⟨hy, hl'⟩ := nodup_cons.mp hl
    rw [zipIdx_cons] at h ⊢
    rcases mem_cons.mp h with heq | hmem
    · cases heq
      have hkeep : (l.zipIdx (gap + 1)).filter (fun e => e.1 ≠ x) = l.zipIdx (gap + 1) := by
        refine filter_eq_self.mpr fun e he => ?_
        have hne : e.1 ≠ x := fun hex => hy (hex ▸ fst_mem_of_mem_zipIdx he)
        exact decide_eq_true hne
      rw [filter_cons_of_neg (by simp), hkeep, erase_cons_head]
      exact map_closeGap_of_lt l (Nat.le_refl gap)
    have hne : y ≠ x := fun hyx => hy (hyx ▸ fst_mem_of_mem_zipIdx hmem)
    have hgap := le_snd_of_mem_zipIdx hmem
    have hk : closeGap gap k = k := by
      unfold closeGap
      rw [if_neg]
      omega
    rw [filter_cons_of_pos (by simpa using hne), map_cons, ih hl' hmem,
      erase_cons_tail (by simpa using hne), zipIdx_cons, hk]

end DensePositions

import Mathlib.Algebra.BigOperators.Group.Finset.Basic

/-!
# Threads that share a state

A world is a shared state and, for every thread `i : ι`, the place `pc i` where it stands.  The
threads run the same code `next`, one atomic step at a time; which thread moves is the schedule.
-/

namespace Interleaving
open Function

structure World (ι S P : Type) where
  shared : S
  pc : ι → P

variable {ι S P : Type} [DecidableEq ι]

def setPc (w : World ι S P) (i : ι) (p : P) : World ι S P :=
  { w with pc := Function.update w.pc i p }

/-- thread `i` takes its next step -/
def stepThread (next : S → P → S × P) (w : World ι S P) (i : ι) : World ι S P where
  shared := (next w.shared (w.pc i)).1
  pc := Function.update w.pc i (next w.shared (w.pc i)).2

section
variable (w : World ι S P) (i : ι)

theorem setPc_self (p : P) : (setPc w i p).pc i = p := by
  show update w.pc i p i = p
  rw [update_self]

theorem setPc_other (p : P) {j : ι} (h : j ≠ i) : (setPc w i p).pc j = w.pc j := by
  show update w.pc i p j = w.pc j
  rw [update_of_ne h]

variable (next : S → P → S × P)

theorem stepThread_self : (stepThread next w i).pc i = (next w.shared (w.pc i)).2 :=
  setPc_self w i _

theorem stepThread_other {j : ι} (h : j ≠ i) : (stepThread next w i).pc j = w.pc j :=
  setPc_other w i _ h

end

variable {w : World ι S P} {i : ι} {next : S → P → S × P}

theorem forall_setPc {J : S → P → Prop} (h : ∀ j, J w.shared (w.pc j)) {p : P}
    (own : J w.shared p) (j : ι) : J (setPc w i p).shared ((setPc w i p).pc j) := by
  by_cases hj : j = i
  · rw [hj, setPc_self]
    exact own
  · rw [setPc_other w i p hj]
    exact h j

theorem forall_stepThread {J : S → P → Prop} (h : ∀ j, J w.shared (w.pc j))
    (own : J (next w.shared (w.pc i)).1 (next w.shared (w.pc i)).2)
    (rely : ∀ p, J w.shared p → J (next w.shared (w.pc i)).1 p) (j : ι) :
    J (stepThread next w i).shared ((stepThread next w i).pc j) := by
  by_cases hj : j = i
  · rw [hj, stepThread_self]
    exact own
  · rw [stepThread_other w i next hj]
    exact rely _ (h j)

theorem sum_setPc (f : P → Nat) {threads : Finset ι} (hi : i ∈ threads) (p : P) :
    ∑ j ∈ threads, f ((setPc w i p).pc j) + f (w.pc i) = ∑ j ∈ threads, f (w.pc j) + f p := by
  have hothers : ∑ j ∈ threads.erase i, f ((setPc w i p).pc j) =
      ∑ j ∈ threads.erase i, f (w.pc j) :=
    Finset.sum_congr rfl fun j hj => by rw [setPc_other w i p (Finset.ne_of_mem_erase hj)]
  rw [← Finset.add_sum_erase threads _ hi, ← Finset.add_sum_erase threads (fun j => f (w.pc j)) hi,
    setPc_self, hothers]
  omega

theorem exists_setPc {J : P → Prop} (h : ∃ j, J (w.pc j)) {p : P} (own : J (w.pc i) → J p) :
    ∃ j, J ((setPc w i p).pc j) := by
  obtain ⟨j, hj⟩ := h
  refine ⟨j, ?_⟩
  by_cases hji : j = i
  · subst hji
    rw [setPc_self]
    exact own hj
  · rw [setPc_other w i p hji]
    exact hj

end Interleaving

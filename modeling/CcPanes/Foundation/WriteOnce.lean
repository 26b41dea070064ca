import Mathlib.Logic.Function.Basic

/-!
# Registers that are written once

A map of registers, each written by the first who comes.  A later `put` of the same value is
accepted as well, a `put` of another value is not, and no register is ever overwritten.
-/

namespace WriteOnce
open Function

set_option linter.unusedSectionVars false

variable {κ ρ : Type} [DecidableEq κ] [DecidableEq ρ] {m : κ → Option ρ} {k : κ}

inductive Outcome where
  | inserted
  | existing
  | mismatch
  deriving DecidableEq

def put (m : κ → Option ρ) (k : κ) (r : ρ) : Outcome × (κ → Option ρ) :=
  match m k with
  | none => (.inserted, Function.update m k (some r))
  | some r' => if r' = r then (.existing, m) else (.mismatch, m)

theorem put_of_none (r : ρ) (h : m k = none) :
    put m k r = (.inserted, Function.update m k (some r)) := by
  unfold put
  rw [h]

theorem put_of_same {r : ρ} (h : m k = some r) : put m k r = (.existing, m) := by
  unfold put
  rw [h]
  exact if_pos rfl

theorem put_of_other {r r' : ρ} (h : m k = some r') (hne : r' ≠ r) :
    put m k r = (.mismatch, m) := by
  unfold put
  rw [h]
  exact if_neg hne

theorem put_keeps {r : ρ} (h : m k = some r) (k' : κ) (r' : ρ) : (put m k' r').2 k = some r := by
  cases h' : m k' with
  | none =>
    have hne : k ≠ k' := by
      rintro rfl
      rw [h] at h'
      cases h'
    rw [put_of_none r' h']
    show update m k' (some r') k = some r
    rw [update_of_ne hne, h]
  | some r'' =>
    by_cases hsame : r'' = r'
    · subst hsame
      rw [put_of_same h']
      exact h
    · rw [put_of_other h' hsame]
      exact h

theorem put_get {r : ρ} (h : (put m k r).1 ≠ .mismatch) : (put m k r).2 k = some r := by
  cases h' : m k with
  | none =>
    rw [put_of_none r h']
    exact update_self k (some r) m
  | some r' =>
    by_cases hsame : r' = r
    · subst hsame
      rw [put_of_same h']
      exact h'
    · rw [put_of_other h' hsame] at h
      exact absurd rfl h

/-! ## the log of the accepted puts -/

structure Accepted (κ ρ : Type) where
  key : κ
  value : ρ
  isNew : Bool

def accept (log : List (Accepted κ ρ)) (k : κ) (r : ρ) : Outcome → List (Accepted κ ρ)
  | .inserted => ⟨k, r, true⟩ :: log
  | .existing => ⟨k, r, false⟩ :: log
  | .mismatch => log

structure Logged (m : κ → Option ρ) (log : List (Accepted κ ρ)) : Prop where
  value : ∀ a ∈ log, m a.key = some a.value
  once : ∀ k, log.countP (fun a => a.key = k && a.isNew) ≤ 1

theorem Logged.nil (m : κ → Option ρ) : Logged m [] := ⟨nofun, fun _ => Nat.zero_le _⟩

variable {log : List (Accepted κ ρ)}

theorem Logged.same (h : Logged m log) {a b : Accepted κ ρ} (ha : a ∈ log) (hb : b ∈ log)
    (hk : a.key = b.key) : a.value = b.value := by
  have hva := h.value a ha
  rw [hk, h.value b hb] at hva
  exact (Option.some.inj hva).symm

theorem Logged.silent (h : Logged m log) (k : κ) (r : ρ) : Logged (put m k r).2 log :=
  ⟨fun a ha => put_keeps (h.value a ha) k r, h.once⟩

theorem Logged.put (h : Logged m log) (k : κ) (r : ρ) :
    Logged (put m k r).2 (accept log k r (put m k r).1) := by
  have hsilent := h.silent k r
  cases hm : m k with
  | none =>
    rw [put_of_none r hm] at hsilent ⊢
    constructor
    · intro a ha
      obtain rfl | ha := List.mem_cons.mp ha
      · exact update_self k (some r) m
      · exact hsilent.value a ha
    intro k'
    show (⟨k, r, true⟩ :: log).countP (fun a => a.key = k' && a.isNew) ≤ 1
    by_cases hk : k = k'
    · subst hk
      have hzero : log.countP (fun a => a.key = k && a.isNew) = 0 := by
        rw [List.countP_eq_zero]
        intro a ha hp
        rw [Bool.and_eq_true, decide_eq_true_eq] at hp
        have hv := h.value a ha
        rw [hp.1, hm] at hv
        cases hv
      rw [List.countP_cons, hzero, Nat.zero_add]
      split
      · exact Nat.le_refl 1
      · exact Nat.zero_le 1
    · rw [List.countP_cons_of_neg (by simp [hk])]
      exact h.once k'
  | some r' =>
    by_cases hsame : r' = r
    · subst hsame
      rw [put_of_same hm] at hsilent ⊢
      constructor
      · intro a ha
        obtain rfl | ha := List.mem_cons.mp ha
        · exact hm
        · exact hsilent.value a ha
      intro k'
      show (⟨k, r', false⟩ :: log).countP (fun a => a.key = k' && a.isNew) ≤ 1
      rw [List.countP_cons_of_neg (by simp)]
      exact h.once k'
    · rw [put_of_other hm hsame] at hsilent ⊢
      exact hsilent

end WriteOnce

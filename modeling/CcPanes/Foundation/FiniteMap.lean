import Mathlib.Algebra.BigOperators.Group.List.Basic
import Mathlib.Data.List.AList

/-!
# Finite maps

A hash map is an association list without duplicate keys.  `lookup`, `insert`, `erase` and `keys`
are those of `AList`; `retain` keeps the entries that a predicate accepts.
-/

abbrev FiniteMap (κ ρ : Type) := AList fun _ : κ => ρ

namespace FiniteMap

variable {κ ρ : Type} [DecidableEq κ]

def retain (p : κ → ρ → Bool) (m : FiniteMap κ ρ) : FiniteMap κ ρ :=
  ⟨m.entries.filter fun e => p e.1 e.2, m.nodupKeys.sublist List.filter_sublist⟩

theorem lookup_eq_some_iff {m : FiniteMap κ ρ} {k : κ} {r : ρ} :
    m.lookup k = some r ↔ ⟨k, r⟩ ∈ m.entries :=
  List.mem_dlookup_iff m.nodupKeys

theorem lookup_retain_eq_some_iff {p : κ → ρ → Bool} {m : FiniteMap κ ρ} {k : κ} {r : ρ} :
    (retain p m).lookup k = some r ↔ m.lookup k = some r ∧ p k r = true := by
  rw [lookup_eq_some_iff, lookup_eq_some_iff]
  exact List.mem_filter

theorem lookup_insert_eq_some_iff {m : FiniteMap κ ρ} {k k' : κ} {r r' : ρ} :
    (m.insert k r).lookup k' = some r' ↔ k' = k ∧ r' = r ∨ k' ≠ k ∧ m.lookup k' = some r' := by
  by_cases h : k' = k
  · subst h
    rw [AList.lookup_insert, Option.some.injEq]
    exact ⟨fun h => .inl ⟨rfl, h.symm⟩, fun h => (h.resolve_right fun h => h.1 rfl).2.symm⟩
  · rw [AList.lookup_insert_ne h]
    exact ⟨fun h' => .inr ⟨h, h'⟩, fun h' => (h'.resolve_left fun h' => h h'.1).2⟩

theorem lookup_erase_eq_some_iff {m : FiniteMap κ ρ} {k k' : κ} {r : ρ} :
    (m.erase k).lookup k' = some r ↔ k' ≠ k ∧ m.lookup k' = some r := by
  by_cases h : k' = k
  · subst h
    rw [AList.lookup_erase]
    exact ⟨nofun, fun h => absurd rfl h.1⟩
  · rw [AList.lookup_erase_ne h]
    exact ⟨fun h' => ⟨h, h'⟩, fun h' => h'.2⟩

/-! ## what a finite map adds up to -/

open List
variable {M : Type} [AddCommMonoid M] (w : ρ → M)

def total (m : FiniteMap κ ρ) : M := (m.entries.map fun e => w e.2).sum

def weight (m : FiniteMap κ ρ) (k : κ) : M := ((m.lookup k).map w).getD 0

omit [DecidableEq κ] in
theorem total_empty : total w (∅ : FiniteMap κ ρ) = 0 := rfl

theorem sum_kerase (k : κ) (l : List (Σ _ : κ, ρ)) :
    ((l.kerase k).map fun e => w e.2).sum + ((l.dlookup k).map w).getD 0 =
      (l.map fun e => w e.2).sum := by
  induction l with
  | nil => exact add_zero 0
  | cons e l ih =>
    by_cases hk : k = e.1
    · subst hk
      rw [kerase_cons_eq rfl, dlookup_cons_eq, map_cons, sum_cons, add_comm]
      rfl
    · rw [kerase_cons_ne hk, dlookup_cons_ne _ _ hk, map_cons, map_cons,
        sum_cons, sum_cons, add_assoc, ih]

theorem total_insert (m : FiniteMap κ ρ) (k : κ) (r : ρ) :
    total w (m.insert k r) + weight w m k = total w m + w r := by
  have h := sum_kerase w k m.entries
  unfold total weight
  rw [AList.entries_insert, map_cons, sum_cons, add_assoc]
  rw [add_comm (w r)]
  exact congrArg (· + w r) h

theorem weight_le_total (w : ρ → Nat) (m : FiniteMap κ ρ) (k : κ) : weight w m k ≤ total w m :=
  Nat.le_of_add_left_le (Nat.le_of_eq (sum_kerase w k m.entries))

end FiniteMap

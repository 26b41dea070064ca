import CcPanes.Foundation.Run
import Mathlib.Data.List.Induction
import Mathlib.Tactic.ByContra

/-!
# Debts along a trace

Some entries of a trace incur a debt, some pay everything that is owed, and some may only be made
when nothing is owed.
-/

namespace Debt

open Run List

structure Ledger (α : Type) where
  incurs : α → Bool
  pays : α → Bool
  needs : α → Bool

variable {α : Type} (l : Ledger α)

def owedAfter (owes : Bool) (x : α) : Bool :=
  if l.incurs x then true else if l.pays x then false else owes

def owed (t : List α) : Bool := t.foldl (owedAfter l) false

/-- between an entry that incurs a debt and the next entry that needs a clear account, a payment
lies -/
def Settled (t : List α) : Prop :=
  ∀ pre gap mid spend post, t = pre ++ gap :: (mid ++ spend :: post) → l.incurs gap = true →
    l.needs spend = true → (∀ x ∈ mid, l.needs x = false) → ∃ x ∈ mid, l.pays x = true

theorem owed_nil : owed l [] = false := rfl

theorem owed_snoc (t : List α) (x : α) : owed l (t ++ [x]) = owedAfter l (owed l t) x := by
  simp [owed, foldl_append]

variable {l} {t : List α} {x : α}

theorem owed_snoc_of_incurs (h : l.incurs x = true) : owed l (t ++ [x]) = true := by
  rw [owed_snoc, owedAfter, if_pos h]

theorem owed_snoc_of_pays (h : l.pays x = true) (h' : l.incurs x = false) :
    owed l (t ++ [x]) = false := by
  rw [owed_snoc, owedAfter, if_neg (by simp [h']), if_pos h]

theorem owed_snoc_of_neither (h : l.pays x = false) (h' : l.incurs x = false) :
    owed l (t ++ [x]) = owed l t := by
  rw [owed_snoc, owedAfter, if_neg (by simp [h']), if_neg (by simp [h])]

theorem owed_iff :
    owed l t = true ↔
      ∃ pre gap mid, t = pre ++ gap :: mid ∧ l.incurs gap = true ∧ ∀ x ∈ mid, l.pays x = false := by
  constructor
  · intro h
    induction t using reverseRecOn with
    | nil => exact absurd h (by simp [owed_nil])
    | append_singleton t x ih =>
      by_cases hx : l.incurs x = true
      · exact ⟨t, x, [], by simp, hx, by simp⟩
      have hx' : l.incurs x = false := by simpa using hx
      have hp : l.pays x = false := by
        by_contra hp
        rw [owed_snoc_of_pays (by simpa using hp) hx'] at h
        cases h
      rw [owed_snoc_of_neither hp hx'] at h
      obtain ⟨pre, gap, mid, rfl, hg, hm⟩ := ih h
      refine ⟨pre, gap, mid ++ [x], by simp, hg, fun y hy => ?_⟩
      rcases mem_append.mp hy with hy | hy
      · exact hm y hy
      · rw [mem_singleton.mp hy]
        exact hp
  · rintro ⟨pre, gap, mid, rfl, hg, hm⟩
    induction mid using reverseRecOn with
    | nil => exact owed_snoc_of_incurs hg
    | append_singleton mid x ih =>
      have ih' := ih fun y hy => hm y (mem_append_left _ hy)
      have hx : l.pays x = false := hm x (by simp)
      rw [show pre ++ gap :: (mid ++ [x]) = (pre ++ gap :: mid) ++ [x] by simp, owed_snoc,
        owedAfter, ih']
      simp [hx]

theorem settled_nil : Settled l [] := by
  intro pre gap mid spend post e
  simp at e

theorem Settled.of_snoc (h : Settled l (t ++ [x])) : Settled l t := by
  intro pre gap mid spend post e
  refine h pre gap mid spend (post ++ [x]) ?_
  rw [e]
  simp

theorem Settled.no_needs {pre mid : List α} {gap : α} (h : Settled l (pre ++ gap :: mid))
    (hg : l.incurs gap = true) (hm : ∀ x ∈ mid, l.pays x = false) :
    ∀ x ∈ mid, l.needs x = false := by
  induction mid using reverseRecOn with
  | nil => simp
  | append_singleton mid y ih =>
    have e : pre ++ gap :: (mid ++ [y]) = (pre ++ gap :: mid) ++ [y] := by simp
    have hm' : ∀ x ∈ mid, l.pays x = false := fun x hx => hm x (mem_append_left _ hx)
    have ih' := ih (by rw [e] at h; exact h.of_snoc) hm'
    intro x hx
    rcases mem_append.mp hx with hx | hx
    · exact ih' x hx
    rw [mem_singleton.mp hx]
    by_contra hy
    obtain ⟨z, hz, hzp⟩ := h pre gap mid y [] (by simp) hg (by simpa using hy) ih'
    rw [hm' z hz] at hzp
    cases hzp

/-- **One more entry**: the trace stays settled exactly if it does not spend while it owes. -/
theorem settled_snoc :
    Settled l (t ++ [x]) ↔ Settled l t ∧ (l.needs x = true → owed l t = false) := by
  constructor
  · intro h
    refine ⟨h.of_snoc, fun hx => ?_⟩
    by_contra howe
    obtain ⟨pre, gap, mid, rfl, hg, hm⟩ := owed_iff.mp (by simpa using howe)
    have hn := h.of_snoc.no_needs hg hm
    obtain ⟨z, hz, hzp⟩ := h pre gap mid x [] (by simp) hg hx hn
    rw [hm z hz] at hzp
    cases hzp
  rintro ⟨ht, hx⟩ pre gap mid spend post e hg hs hm
  rcases eq_nil_or_concat post with rfl | ⟨post, y, rfl⟩
  · have e' : t ++ [x] = (pre ++ gap :: mid) ++ [spend] := by rw [e]; simp
    obtain ⟨rfl, hxs⟩ := append_inj' e' rfl
    obtain rfl : x = spend := by simpa using hxs
    by_contra hno
    have howe : owed l (pre ++ gap :: mid) = true := by
      refine owed_iff.mpr ⟨pre, gap, mid, rfl, hg, fun z hz => ?_⟩
      by_contra hz'
      exact hno ⟨z, hz, by simpa using hz'⟩
    rw [hx hs] at howe
    cases howe
  · have e' : t ++ [x] = (pre ++ gap :: (mid ++ spend :: post)) ++ [y] := by rw [e]; simp
    obtain ⟨rfl, _⟩ := append_inj' e' rfl
    exact ht pre gap mid spend post rfl hg hs hm

theorem settled_iff_every :
    Settled l t ↔ Every (fun pre x => l.needs x = true → owed l pre = false) t := by
  refine history_induct (I := fun t => Settled l t ↔
    Every (fun pre x => l.needs x = true → owed l pre = false) t) ?_ ?_ t
  · exact ⟨fun _ => trivial, fun _ => settled_nil⟩
  · intro h x ih
    rw [settled_snoc, every_snoc, ih]

instance (t : List α) : Decidable (Settled l t) := decidable_of_iff _ settled_iff_every.symm

end Debt

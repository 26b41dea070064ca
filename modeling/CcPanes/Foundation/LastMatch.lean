import Mathlib.Data.Nat.Find

/-!
# The last match

A scan of a text reads matches: `M p v` says that a match with the value `v` starts at the
position `p`.  What a scan keeps is the value of the match with the greatest position, or what it
had before if there is none.
-/

variable {β : Type}

def LastMatch (M : Nat → β → Prop) (v : β) : Prop := ∃ p, M p v ∧ ∀ q w, M q w → q ≤ p

def OneValue (M : Nat → β → Prop) : Prop := ∀ p v w, M p v → M p w → v = w

inductive Latest (M : Nat → β → Prop) (v₀ : β) : β → Prop
  | last {v : β} (h : LastMatch M v) : Latest M v₀ v
  | none (h : ∀ p v, ¬M p v) : Latest M v₀ v₀

section
variable {M N : Nat → β → Prop} {v v₀ w : β}

theorem LastMatch.unique (hM : OneValue M) (h : LastMatch M v) (h' : LastMatch M w) : v = w := by
  obtain ⟨p, hp, hmax⟩ := h
  obtain ⟨q, hq, hmax'⟩ := h'
  have e : p = q := Nat.le_antisymm (hmax' p v hp) (hmax q w hq)
  subst e
  exact hM p v w hp hq

theorem exists_lastMatch {n p : Nat} (hbound : ∀ q w, M q w → q ≤ n) (h : M p v) :
    ∃ w, LastMatch M w := by
  classical
  have hp : ∃ w, M (Nat.findGreatest (fun q => ∃ w, M q w) n) w :=
    Nat.findGreatest_spec (P := fun q => ∃ w, M q w) (hbound p v h) ⟨v, h⟩
  obtain ⟨w, hw⟩ := hp
  refine ⟨w, _, hw, ?_⟩
  intro q u hq
  exact Nat.le_findGreatest (hbound q u hq) ⟨u, hq⟩

theorem exists_latest {n : Nat} (v₀ : β) (hbound : ∀ q w, M q w → q ≤ n) :
    ∃ v, Latest M v₀ v := by
  by_cases h : ∃ p v, M p v
  · obtain ⟨p, v, hp⟩ := h
    obtain ⟨w, hw⟩ := exists_lastMatch hbound hp
    exact ⟨w, .last hw⟩
  · exact ⟨v₀, .none fun p v hp => h ⟨p, v, hp⟩⟩

theorem Latest.congr (hMN : ∀ p v, M p v ↔ N p v) (h : Latest M v₀ v) : Latest N v₀ v := by
  have e : M = N := by
    funext p v
    exact propext (hMN p v)
  subst e
  exact h

theorem Latest.unique (hM : OneValue M) (h : Latest M v₀ v) (h' : Latest M v₀ w) : v = w := by
  cases h with
  | last h =>
    cases h' with
    | last h' => exact h.unique hM h'
    | none hnone =>
      obtain ⟨p, hp, -⟩ := h
      exact absurd hp (hnone p v)
  | none hnone =>
    cases h' with
    | last h' =>
      obtain ⟨p, hp, -⟩ := h'
      exact absurd hp (hnone p w)
    | none => rfl

theorem Latest.union (h : Latest M v₀ v) (h' : Latest N v w)
    (hafter : ∀ p a q b, M p a → N q b → ∃ q' b', N q' b' ∧ p ≤ q') :
    Latest (fun p a => M p a ∨ N p a) v₀ w := by
  cases h' with
  | last h' =>
    obtain ⟨q, hq, hmax⟩ := h'
    refine .last ⟨q, .inr hq, ?_⟩
    intro p a hpa
    rcases hpa with hpa | hpa
    · obtain ⟨q', b', hq', hle⟩ := hafter p a q w hpa hq
      exact Nat.le_trans hle (hmax q' b' hq')
    · exact hmax p a hpa
  | none hnone =>
    refine h.congr ?_
    intro p a
    constructor
    · exact .inl
    · intro hpa
      exact hpa.resolve_right (hnone p a)

theorem Latest.shift (h : Latest M v₀ v) (n : Nat) :
    Latest (fun p a => n ≤ p ∧ M (p - n) a) v₀ v := by
  cases h with
  | last h =>
    obtain ⟨p, hp, hmax⟩ := h
    refine .last ⟨n + p, ⟨Nat.le_add_right n p, ?_⟩, ?_⟩
    · rw [Nat.add_sub_cancel_left]
      exact hp
    · intro q w hq
      have hle := hmax _ w hq.2
      omega
  | none h =>
    refine .none ?_
    intro p a hp
    exact h _ a hp.2

end

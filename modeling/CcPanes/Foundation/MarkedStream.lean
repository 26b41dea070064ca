import Mathlib.Data.List.Infix

/-!
# Stretches of a stream, with marks at the gaps

A sender passes on a stream in stretches.  Where the next stretch does not start at the end of the
last one, a mark has to stand between them.
-/

namespace MarkedStream
open List

variable {β : Type} {st : List β} {data : List β} {stop : Nat}

inductive Item (β : Type) where
  | stretch (start : Nat) (data : List β)
  | mark

def standsAt : Option Nat → List (Item β) → Option Nat
  | p, [] => p
  | _, .stretch start data :: rest => standsAt (some (start + data.length)) rest
  | _, .mark :: rest => standsAt none rest

def Follows : Option Nat → List (Item β) → Prop
  | _, [] => True
  | p, .stretch start data :: rest =>
    (p = none ∨ p = some start) ∧ Follows (some (start + data.length)) rest
  | _, .mark :: rest => Follows none rest

instance decidableFollows : (p : Option Nat) → (l : List (Item β)) → Decidable (Follows p l)
  | _, [] => .isTrue trivial
  | p, .stretch start data :: rest =>
    have := decidableFollows (some (start + data.length)) rest
    inferInstanceAs (Decidable ((p = none ∨ p = some start) ∧
      Follows (some (start + data.length)) rest))
  | _, .mark :: rest => decidableFollows none rest

def Holds (st : List β) (l : List (Item β)) : Prop :=
  ∀ start data, .stretch start data ∈ l → data <+: st.drop start

/-- `data` is the stretch of `st` that ends at `stop` -/
structure EndsAt (st : List β) (stop : Nat) (data : List β) : Prop where
  le : stop ≤ st.length
  suffix : data <:+ st.take stop

/-! ## where a stream stands -/

theorem standsAt_append (p : Option Nat) (a b : List (Item β)) :
    standsAt p (a ++ b) = standsAt (standsAt p a) b := by
  induction a generalizing p with
  | nil => rfl
  | cons x a ih =>
    cases x with
    | stretch => exact ih _
    | mark => exact ih _

theorem follows_append (p : Option Nat) (a b : List (Item β)) :
    Follows p (a ++ b) ↔ Follows p a ∧ Follows (standsAt p a) b := by
  induction a generalizing p with
  | nil =>
    show Follows p b ↔ True ∧ Follows p b
    rw [true_and]
  | cons x a ih =>
    cases x with
    | stretch =>
      show _ ∧ Follows _ (a ++ b) ↔ (_ ∧ Follows _ a) ∧ Follows (standsAt (some _) a) b
      rw [ih, and_assoc]
    | mark =>
      show Follows _ (a ++ b) ↔ Follows _ a ∧ Follows _ b
      exact ih none

theorem standsAt_snoc_stretch (p : Option Nat) (l : List (Item β)) (start : Nat) (data : List β) :
    standsAt p (l ++ [.stretch start data]) = some (start + data.length) := by
  rw [standsAt_append]
  rfl

theorem standsAt_snoc_mark (p : Option Nat) (l : List (Item β)) :
    standsAt p (l ++ [.mark]) = none := by
  rw [standsAt_append]
  rfl

variable {l : List (Item β)}

theorem Follows.snoc_mark {p : Option Nat} (h : Follows p l) : Follows p (l ++ [.mark]) :=
  (follows_append p l _).mpr ⟨h, trivial⟩

theorem Follows.snoc_stretch {p : Option Nat} (h : Follows p l) {start : Nat}
    (hstart : standsAt p l = none ∨ standsAt p l = some start) (data : List β) :
    Follows p (l ++ [.stretch start data]) :=
  (follows_append p l _).mpr ⟨h, hstart, trivial⟩

theorem Holds.nil (st : List β) : Holds st [] := by
  intro start data h
  cases h

theorem Holds.mono (h : Holds st l) (more : List β) : Holds (st ++ more) l := by
  intro start data hmem
  rw [drop_append]
  exact (h start data hmem).trans (prefix_append _ _)

theorem Holds.snoc_mark (h : Holds st l) : Holds st (l ++ [.mark]) := by
  intro start data hmem
  rcases mem_append.mp hmem with hold | hnew
  · exact h start data hold
  · simp at hnew

theorem Holds.snoc_stretch (h : Holds st l) {start : Nat} (hdata : data <+: st.drop start) :
    Holds st (l ++ [.stretch start data]) := by
  intro start' data' hmem
  rcases mem_append.mp hmem with hold | hnew
  · exact h start' data' hold
  · obtain ⟨rfl, rfl⟩ : start' = start ∧ data' = data := by simpa using hnew
    exact hdata

theorem EndsAt.length_le (h : EndsAt st stop data) : data.length ≤ stop := by
  have hle := h.suffix.length_le
  rw [length_take] at hle
  omega

theorem EndsAt.all (st : List β) : EndsAt st st.length st :=
  ⟨Nat.le_refl _, by rw [take_length]⟩

theorem EndsAt.of_suffix {data data' : List β} (h : EndsAt st stop data)
    (hsuffix : data' <:+ data) : EndsAt st stop data' :=
  ⟨h.le, hsuffix.trans h.suffix⟩

theorem EndsAt.mono (h : EndsAt st stop data) (more : List β) : EndsAt (st ++ more) stop data := by
  refine ⟨?_, ?_⟩
  · rw [length_append]
    exact Nat.le_add_right_of_le h.le
  · rw [take_append_of_le_length h.le]
    exact h.suffix

theorem EndsAt.place (h : EndsAt st stop data) : data <+: st.drop (stop - data.length) := by
  obtain ⟨before, hbefore⟩ := h.suffix
  have hlen : before.length = stop - data.length := by
    have e := congrArg length hbefore
    rw [length_append, length_take, Nat.min_eq_left h.le] at e
    omega
  have hst : st = before ++ (data ++ st.drop stop) := by
    rw [← append_assoc, hbefore, take_append_drop]
  have hdrop : st.drop (stop - data.length) = data ++ st.drop stop := by
    conv_lhs => rw [hst, ← hlen, drop_left]
  rw [hdrop]
  exact prefix_append _ _

end MarkedStream

import CcPanes.Foundation.Run
import Mathlib.Logic.Function.Basic

/-!
# Programs that call a shared state

A program makes calls, each answered by a value, and ends with a result or an error.  Threads run
programs against a shared state, one call at a time.
-/

/-- calls `c : C`, answered by `R c`, errors `ε`, results `α` -/
inductive CallProgram {C : Type} (R : C → Type) (ε α : Type) : Type
  | done (a : α)
  | fail (e : ε)
  | call (c : C) (k : R c → CallProgram R ε α)

namespace CallProgram
open Function

variable {C : Type} {R : C → Type} {ε α β σ S : Type}

def bind : CallProgram R ε α → (α → CallProgram R ε β) → CallProgram R ε β
  | .done a, f => f a
  | .fail e, _ => .fail e
  | .call c k, f => .call c fun r => bind (k r) f

instance : Monad (CallProgram R ε) where
  pure := .done
  bind := bind

def ask (c : C) : CallProgram R ε (R c) := .call c .done

/-- What a thread may call in a local state; which answers it can get there, and where they lead;
where it may end with an error. -/
structure Protocol (R : C → Type) (σ : Type) where
  allows : σ → C → Prop
  moves : σ → (c : C) → R c → σ → Prop
  mayFail : σ → Prop

/-- From the local state, every call is allowed, whatever the answers that the protocol admits; a
result satisfies `post` in the local state in which the program ends. -/
inductive Obeys (P : Protocol R σ) (post : σ → α → Prop) : σ → CallProgram R ε α → Prop
  | done {s : σ} {a : α} (h : post s a) : Obeys P post s (.done a)
  | fail {s : σ} {e : ε} (h : P.mayFail s) : Obeys P post s (.fail e)
  | call {s : σ} {c : C} {k : R c → CallProgram R ε α} (hallows : P.allows s c)
      (hk : ∀ r s', P.moves s c r s' → Obeys P post s' (k r)) : Obeys P post s (.call c k)

section
variable {P : Protocol R σ} {post post' : σ → α → Prop} {s : σ} {p : CallProgram R ε α}

theorem obeys_ask {c : C} {post : σ → R c → Prop} (hallows : P.allows s c)
    (hpost : ∀ r s', P.moves s c r s' → post s' r) :
    Obeys P post s (ask c : CallProgram R ε (R c)) :=
  .call hallows fun r s' hr => .done (hpost r s' hr)

theorem Obeys.mono (h : Obeys P post s p) (himp : ∀ s a, post s a → post' s a) :
    Obeys P post' s p := by
  induction h with
  | done h => exact .done (himp _ _ h)
  | fail h => exact .fail h
  | call hallows _ ih => exact .call hallows ih

theorem Obeys.bind {mid : σ → α → Prop} {post : σ → β → Prop} {f : α → CallProgram R ε β}
    (hp : Obeys P mid s p) (hf : ∀ s' a, mid s' a → Obeys P post s' (f a)) :
    Obeys P post s (p >>= f) := by
  induction hp with
  | done h => exact hf _ _ h
  | fail h => exact .fail h
  | call hallows _ ih => exact .call hallows ih

end

/-! ## threads -/

/-- a shared state, and the program that each thread has still to run -/
structure Threads (R : C → Type) (ε S : Type) where
  shared : S
  program : Nat → CallProgram R ε Unit

variable {perform : S → (c : C) → R c × S} {w : Threads R ε S} {i : Nat}

def stepThread (perform : S → (c : C) → R c × S) (w : Threads R ε S) (i : Nat) :
    Threads R ε S :=
  match w.program i with
  | .call c k =>
    { shared := (perform w.shared c).2
      program := Function.update w.program i (k (perform w.shared c).1) }
  | _ => w

theorem stepThread_call {c : C} {k : R c → CallProgram R ε Unit} (h : w.program i = .call c k) :
    stepThread perform w i =
      { shared := (perform w.shared c).2
        program := Function.update w.program i (k (perform w.shared c).1) } := by
  rw [stepThread, h]

def Running (w : Threads R ε S) (i : Nat) : Prop := ∃ c k, w.program i = .call c k

variable {P : Protocol R σ} {J : Nat → S → σ → Prop}

/-- every running thread obeys the protocol, in a local state that fits the shared state -/
def Typed (P : Protocol R σ) (J : Nat → S → σ → Prop) (w : Threads R ε S) : Prop :=
  ∀ i, Running w i → ∃ s, Obeys P (fun _ _ => True) s (w.program i) ∧ J i w.shared s

theorem Typed.step (h : Typed P J w) {c : C} {k : R c → CallProgram R ε Unit}
    (hcall : w.program i = .call c k)
    (own : ∀ s, J i w.shared s → P.allows s c →
      ∃ s', P.moves s c (perform w.shared c).1 s' ∧ J i (perform w.shared c).2 s')
    (others : ∀ s j s', J i w.shared s → P.allows s c → j ≠ i → Running w j →
      J j w.shared s' → J j (perform w.shared c).2 s') : Typed P J (stepThread perform w i) := by
  obtain ⟨s, hobeys, hs⟩ := h i ⟨c, k, hcall⟩
  rw [hcall] at hobeys
  cases hobeys with | call hallows hk =>
  rw [stepThread_call hcall]
  rintro j ⟨c', k', hj⟩
  dsimp only at hj ⊢
  by_cases hji : j = i
  · subst hji
    obtain ⟨s', hmoves, hs'⟩ := own s hs hallows
    rw [update_self]
    exact ⟨s', hk _ s' hmoves, hs'⟩
  · rw [update_of_ne hji] at hj ⊢
    obtain ⟨s', hobeys', hs'⟩ := h j ⟨c', k', hj⟩
    exact ⟨s', hobeys', others s j s' hs hallows hji ⟨c', k', hj⟩ hs'⟩

theorem Typed.at_call (h : Typed P J w) {c : C} {k : R c → CallProgram R ε Unit}
    (hcall : w.program i = .call c k) : ∃ s, P.allows s c ∧ J i w.shared s := by
  obtain ⟨s, hobeys, hs⟩ := h i ⟨c, k, hcall⟩
  rw [hcall] at hobeys
  cases hobeys with
  | call hallows hk => exact ⟨s, hallows, hs⟩

theorem Typed.start (h : Typed P J w) {p : CallProgram R ε Unit} {s : σ} {S' : S}
    (hobeys : Obeys P (fun _ _ => True) s p) (hs : J i S' s)
    (others : ∀ j s', j ≠ i → Running w j → J j w.shared s' → J j S' s') :
    Typed P J { shared := S', program := Function.update w.program i p } := by
  rintro j ⟨c, k, hj⟩
  dsimp only at hj ⊢
  by_cases hji : j = i
  · subst hji
    rw [update_self]
    exact ⟨s, hobeys, hs⟩
  · rw [update_of_ne hji] at hj ⊢
    obtain ⟨s', hobeys', hs'⟩ := h j ⟨c, k, hj⟩
    exact ⟨s', hobeys', others j s' hji ⟨c, k, hj⟩ hs'⟩

theorem Typed.stop (h : Typed P J w) (a : Unit) :
    Typed P J { w with program := Function.update w.program i (.done a) } := by
  rintro j ⟨c, k, hj⟩
  dsimp only at hj ⊢
  by_cases hji : j = i
  · subst hji
    rw [update_self] at hj
    cases hj
  · rw [update_of_ne hji] at hj ⊢
    exact h j ⟨c, k, hj⟩

theorem Typed.shared (h : Typed P J w) {S' : S}
    (hJ : ∀ j s, Running w j → J j w.shared s → J j S' s) : Typed P J { w with shared := S' } := by
  intro j hj
  obtain ⟨s, hobeys, hs⟩ := h j hj
  exact ⟨s, hobeys, hJ j s hj hs⟩

end CallProgram

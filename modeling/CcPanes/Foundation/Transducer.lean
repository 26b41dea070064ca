import Mathlib.Data.List.Induction

/-!
# Transducers

A transducer takes pieces of input one by one; what it emits and what it holds back depend on what
it holds already.
-/

namespace Transducer
open List

section
variable {σ γ β : Type} (step : σ → γ → σ × List β) {ps : List (Bool × γ)} {s : σ} {prev : Bool}

def feed : σ → List γ → σ × List β
  | s, [] => (s, [])
  | s, c :: cs => ((feed (step s c).1 cs).1, (step s c).2 ++ (feed (step s c).1 cs).2)

theorem feed_nil (s : σ) : feed step s [] = (s, []) := rfl

theorem feed_cons (s : σ) (c : γ) (cs : List γ) : feed step s (c :: cs) =
    ((feed step (step s c).1 cs).1, (step s c).2 ++ (feed step (step s c).1 cs).2) := rfl

theorem feed_append (s : σ) (a b : List γ) : feed step s (a ++ b) =
    ((feed step (feed step s a).1 b).1, (feed step s a).2 ++ (feed step (feed step s a).1 b).2) := by
  induction a generalizing s with
  | nil => rfl
  | cons c cs ih => rw [cons_append, feed_cons, ih, feed_cons, append_assoc]

theorem feed_snoc (s : σ) (cs : List γ) (c : γ) : feed step s (cs ++ [c]) =
    ((step (feed step s cs).1 c).1, (feed step s cs).2 ++ (step (feed step s cs).1 c).2) := by
  rw [feed_append, feed_cons, feed_nil, append_nil]

/-! ## two streams -/

def side (k : Bool) (ps : List (Bool × γ)) : List γ := (ps.filter fun p => p.1 = k).map Prod.snd

theorem side_cons_self (k : Bool) (c : γ) (ps : List (Bool × γ)) :
    side k ((k, c) :: ps) = c :: side k ps := by
  simp [side]

theorem side_cons_other {k l : Bool} (h : l ≠ k) (c : γ) (ps : List (Bool × γ)) :
    side k ((l, c) :: ps) = side k ps := by
  simp [side, h]

/-- what the pieces of stream `k` make the shared transducer emit -/
def sharedOut (k : Bool) : σ → List (Bool × γ) → List β
  | _, [] => []
  | s, (l, c) :: ps => (if l = k then (step s c).2 else []) ++ sharedOut k (step s c).1 ps

variable (Idle : σ → Prop)

/-- the shared transducer is idle wherever the streams change; the last piece came from `prev` -/
def Clear : Bool → σ → List (Bool × γ) → Prop
  | _, _, [] => True
  | prev, s, (l, c) :: ps => (l ≠ prev → Idle s) ∧ Clear l (step s c).1 ps

/-- the state `t` of the stream that has the word, and `u` of the other, each fed alone: wherever
the streams change, the one that has had the word is idle -/
def AloneClear : Bool → σ → σ → List (Bool × γ) → Prop
  | _, _, _, [] => True
  | prev, t, u, (l, c) :: ps =>
    if l = prev then AloneClear l (step t c).1 u ps
    else Idle t ∧ AloneClear l (step u c).1 t ps

variable {step} {idle : σ}

theorem clear_iff :
    Clear step (· = idle) prev s ps ↔ AloneClear step (· = idle) prev s idle ps := by
  induction ps generalizing prev s with
  | nil => exact Iff.rfl
  | cons p ps ih =>
    obtain ⟨l, c⟩ := p
    unfold Clear AloneClear
    by_cases hl : l = prev
    · rw [if_pos hl, ← ih]
      exact ⟨fun h => h.2, fun h => ⟨fun hn => absurd hl hn, h⟩⟩
    rw [if_neg hl]
    constructor
    · rintro ⟨hs, h⟩
      obtain rfl := hs hl
      exact ⟨rfl, ih.mp h⟩
    · rintro ⟨rfl, h⟩
      exact ⟨fun _ => rfl, ih.mpr h⟩

/-- **Each stream comes out as if it were alone** if nothing is held back where they change -/
theorem sharedOut_of_clear (h : Clear step (· = idle) prev s ps) :
    sharedOut step prev s ps = (feed step s (side prev ps)).2 ∧
      sharedOut step (!prev) s ps = (feed step idle (side (!prev) ps)).2 := by
  induction ps generalizing prev s with
  | nil => exact ⟨rfl, rfl⟩
  | cons p ps ih =>
    obtain ⟨l, c⟩ := p
    obtain ⟨hs, h⟩ := h
    by_cases hl : l = prev
    · subst hl
      obtain ⟨h1, h2⟩ := ih h
      rw [side_cons_self, side_cons_other (by simp), feed_cons, ← h1, ← h2]
      exact ⟨by simp [sharedOut], by simp [sharedOut]⟩
    obtain rfl := hs hl
    obtain rfl : l = !prev := by
      cases l <;> cases prev <;> simp_all
    obtain ⟨h1, h2⟩ := ih h
    rw [Bool.not_not] at h2
    rw [side_cons_self, side_cons_other (by simp), feed_cons, ← h1, ← h2]
    exact ⟨by simp [sharedOut], by simp [sharedOut]⟩

/-! ## one transducer seen as another -/

variable {τ : Type} {step' : τ → γ → τ × List β} {π : σ → τ} {I : σ → Prop}

/-- seen through `π`, each step from a state with `I` is one of `step'`, and keeps `I` -/
def Sees (step : σ → γ → σ × List β) (step' : τ → γ → τ × List β) (π : σ → τ)
    (I : σ → Prop) : Prop :=
  ∀ s c, I s → I (step s c).1 ∧ step' (π s) c = (π (step s c).1, (step s c).2)

theorem Sees.feed (h : Sees step step' π I) (hs : I s) (cs : List γ) :
    (feed step s cs).2 = (feed step' (π s) cs).2 := by
  induction cs generalizing s with
  | nil => rfl
  | cons c cs ih =>
    obtain ⟨hI, hstep⟩ := h s c hs
    rw [feed_cons, feed_cons, hstep, ih hI]

theorem Sees.feed_state (h : Sees step step' π I) (hs : I s) (cs : List γ) :
    π (Transducer.feed step s cs).1 = (Transducer.feed step' (π s) cs).1 := by
  induction cs generalizing s with
  | nil => rfl
  | cons c cs ih =>
    obtain ⟨hI, hstep⟩ := h s c hs
    rw [feed_cons, feed_cons, hstep, ih hI]

theorem Sees.feed_inv (h : Sees step step' π I) (hs : I s) (cs : List γ) :
    I (Transducer.feed step s cs).1 := by
  induction cs generalizing s with
  | nil => exact hs
  | cons c cs ih => exact ih (h s c hs).1

theorem Sees.sharedOut (h : Sees step step' π I) (hs : I s) (k : Bool) (ps : List (Bool × γ)) :
    sharedOut step k s ps = sharedOut step' k (π s) ps := by
  induction ps generalizing s with
  | nil => rfl
  | cons p ps ih =>
    obtain ⟨l, c⟩ := p
    obtain ⟨hI, hstep⟩ := h s c hs
    unfold Transducer.sharedOut
    rw [hstep, ih hI]

theorem Sees.clear (h : Sees step step' π I) (Idle : τ → Prop) (hs : I s) :
    Clear step (fun s => Idle (π s)) prev s ps ↔ Clear step' Idle prev (π s) ps := by
  induction ps generalizing prev s with
  | nil => exact Iff.rfl
  | cons p ps ih =>
    obtain ⟨l, c⟩ := p
    obtain ⟨hI, hstep⟩ := h s c hs
    unfold Clear
    rw [hstep, ih hI]

theorem Sees.aloneClear (h : Sees step step' π I) (Idle : τ → Prop) {t u : σ} (ht : I t)
    (hu : I u) :
    AloneClear step (fun s => Idle (π s)) prev t u ps ↔
      AloneClear step' Idle prev (π t) (π u) ps := by
  induction ps generalizing prev t u with
  | nil => exact Iff.rfl
  | cons p ps ih =>
    obtain ⟨l, c⟩ := p
    obtain ⟨hI, hstep⟩ := h t c ht
    obtain ⟨hI', hstep'⟩ := h u c hu
    unfold AloneClear
    rw [hstep, hstep', ih hI hu, ih hI' ht]

end

/-! ## cuts -/

section
variable {σ α β : Type}

/-- in state `s`, a cut after `a` makes no difference -/
def Splits (step : σ → List α → σ × List β) (s : σ) (a : List α) : Prop :=
  ∀ b, step s (a ++ b) =
    ((step (step s a).1 b).1, (step s a).2 ++ (step (step s a).1 b).2)

theorem feed_flatten {step : σ → List α → σ × List β} {s : σ} {cs : List (List α)} (hne : cs ≠ [])
    (h : ∀ pre post, cs = pre ++ post → pre ≠ [] → post ≠ [] → Splits step s pre.flatten) :
    feed step s cs = step s cs.flatten := by
  induction cs using reverseRecOn with
  | nil => exact absurd rfl hne
  | append_singleton cs a ih =>
    rw [feed_snoc, flatten_append, flatten_singleton]
    by_cases hcs : cs = []
    · subst hcs
      rfl
    have ih := ih hcs fun pre post heq hpre _ =>
      h pre (post ++ [a]) (by rw [heq, append_assoc]) hpre (by simp)
    rw [ih]
    exact (h cs [a] rfl hcs (by simp) a).symm

variable {τ δ : Type}

/-- `g` takes what `f` emits -/
def comp (f : σ → List α → σ × List β) (g : τ → List β → τ × List δ) (s : σ × τ) (c : List α) :
    (σ × τ) × List δ :=
  (((f s.1 c).1, (g s.2 (f s.1 c).2).1), (g s.2 (f s.1 c).2).2)

def outs (f : σ → List α → σ × List β) : σ → List (List α) → List (List β)
  | _, [] => []
  | s, c :: cs => (f s c).2 :: outs f (f s c).1 cs

theorem flatten_outs (f : σ → List α → σ × List β) (s : σ) (cs : List (List α)) :
    (outs f s cs).flatten = (feed f s cs).2 := by
  induction cs generalizing s with
  | nil => rfl
  | cons c cs ih =>
    rw [outs, flatten_cons, ih]
    rfl

theorem feed_comp (f : σ → List α → σ × List β) (g : τ → List β → τ × List δ) (s : σ) (t : τ)
    (cs : List (List α)) : feed (comp f g) (s, t) cs =
      (((feed f s cs).1, (feed g t (outs f s cs)).1), (feed g t (outs f s cs)).2) := by
  induction cs generalizing s t with
  | nil => rfl
  | cons c cs ih =>
    exact congrArg (fun r => (r.1, (g t (f s c).2).2 ++ r.2)) (ih (f s c).1 (g t (f s c).2).1)

theorem Splits.comp {f : σ → List α → σ × List β} {g : τ → List β → τ × List δ} {s : σ × τ}
    {a : List α} (hf : Splits f s.1 a) (hg : Splits g s.2 (f s.1 a).2) :
    Splits (Transducer.comp f g) s a := by
  intro b
  have hb : g s.2 ((f s.1 a).2 ++ (f (f s.1 a).1 b).2) = _ := hg (f (f s.1 a).1 b).2
  show ((_, (g s.2 (f s.1 (a ++ b)).2).1), (g s.2 (f s.1 (a ++ b)).2).2) = _
  rw [hf b, hb]
  rfl

end

end Transducer

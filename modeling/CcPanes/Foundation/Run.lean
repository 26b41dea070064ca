/-!
# Runs of a step function

A system is a state type `σ`, an action type `α` and a total step function `step : σ → α → σ`
(an action that is not enabled leaves the state as it is).  A run is a list of actions.
-/

namespace Run
open List

variable {σ α : Type}

/-- the state after the actions `as`, taken in order from `s` -/
def run (step : σ → α → σ) (s : σ) (as : List α) : σ := as.foldl step s

/-- `Q` holds in every state of the run -/
def Along (step : σ → α → σ) (Q : σ → Prop) : σ → List α → Prop
  | s, [] => Q s
  | s, a :: as => Q s ∧ Along step Q (step s a) as

/-- every action of the run is taken in a state where `P` allows it -/
def StepsOk (step : σ → α → σ) (P : σ → α → Prop) : σ → List α → Prop
  | _, [] => True
  | s, a :: as => P s a ∧ StepsOk step P (step s a) as

instance decidableStepsOk (step : σ → α → σ) (P : σ → α → Prop) [∀ s a, Decidable (P s a)] :
    (s : σ) → (as : List α) → Decidable (StepsOk step P s as)
  | _, [] => .isTrue trivial
  | s, a :: as =>
    have := decidableStepsOk step P (step s a) as
    inferInstanceAs (Decidable (P s a ∧ StepsOk step P (step s a) as))

section
variable (step : σ → α → σ) {as : List α} {s : σ} {P : σ → α → Prop} {Q : σ → Prop} {I : σ → Prop}

theorem run_nil (s : σ) : run step s [] = s := rfl

theorem run_cons (s : σ) (a : α) (as : List α) :
    run step s (a :: as) = run step (step s a) as := rfl

theorem run_append (s : σ) (as bs : List α) :
    run step s (as ++ bs) = run step (run step s as) bs := by
  simp [run, foldl_append]

theorem run_snoc (s : σ) (as : List α) (a : α) :
    run step s (as ++ [a]) = step (run step s as) a := by
  rw [run_append, run_cons, run_nil]

variable {step}

theorem Along.head (h : Along step Q s as) : Q s := by
  cases as with
  | nil => exact h
  | cons a as => exact h.1

theorem Along.at_prefix {as bs : List α} (h : Along step Q s (as ++ bs)) : Q (run step s as) := by
  induction as generalizing s with
  | nil => exact h.head
  | cons a as ih => exact ih h.2

theorem Along.last (h : Along step Q s as) : Q (run step s as) := by
  have h' : Along step Q s (as ++ []) := by rwa [append_nil]
  exact h'.at_prefix

theorem Along.mono {Q Q' : σ → Prop} (hQ : ∀ s, Q s → Q' s) (h : Along step Q s as) :
    Along step Q' s as := by
  induction as generalizing s with
  | nil => exact hQ s h
  | cons a as ih => exact ⟨hQ s h.1, ih h.2⟩

theorem Along.and {Q Q' : σ → Prop} (h : Along step Q s as) (h' : Along step Q' s as) :
    Along step (fun s => Q s ∧ Q' s) s as := by
  induction as generalizing s with
  | nil => exact ⟨h, h'⟩
  | cons a as ih => exact ⟨⟨h.1, h'.1⟩, ih h.2 h'.2⟩

theorem along_iff :
    Along step Q s as ↔ ∀ pre post, as = pre ++ post → Q (run step s pre) := by
  constructor
  · rintro h pre post rfl
    exact h.at_prefix
  intro h
  induction as generalizing s with
  | nil => exact h [] [] rfl
  | cons a as ih =>
    refine ⟨h [] (a :: as) rfl, ih fun pre post e => ?_⟩
    exact h (a :: pre) post (congrArg (a :: ·) e)

theorem along_snoc {b : α} :
    Along step Q s (as ++ [b]) ↔ Along step Q s as ∧ Q (run step s (as ++ [b])) := by
  induction as generalizing s with
  | nil => exact ⟨fun h => ⟨h.1, h.2⟩, fun h => ⟨h.1, h.2⟩⟩
  | cons a as ih =>
    show Q s ∧ Along step Q (step s a) (as ++ [b]) ↔
      (Q s ∧ Along step Q (step s a) as) ∧ Q (run step (step s a) (as ++ [b]))
    rw [ih, and_assoc]

theorem stepsOk_iff :
    StepsOk step P s as ↔ ∀ pre a post, as = pre ++ a :: post → P (run step s pre) a := by
  induction as generalizing s with
  | nil => exact ⟨fun _ pre a post e => by simp at e, fun _ => trivial⟩
  | cons a as ih =>
    constructor
    · rintro ⟨ha, has⟩ pre b post e
      cases pre with
      | nil =>
        obtain ⟨rfl, rfl⟩ := cons.inj e
        exact ha
      | cons c pre =>
        obtain ⟨rfl, e'⟩ := cons.inj e
        exact ih.mp has pre b post e'
    · intro h
      refine ⟨h [] a as rfl, ih.mpr fun pre b post e => ?_⟩
      exact h (a :: pre) b post (congrArg (a :: ·) e)

theorem stepsOk_snoc {b : α} :
    StepsOk step P s (as ++ [b]) ↔ StepsOk step P s as ∧ P (run step s as) b := by
  induction as generalizing s with
  | nil => exact ⟨fun h => ⟨trivial, h.1⟩, fun h => ⟨h.2, trivial⟩⟩
  | cons a as ih =>
    show P s a ∧ StepsOk step P (step s a) (as ++ [b]) ↔ _
    rw [ih]
    exact and_assoc.symm

variable {Q : σ → α → Prop}

theorem StepsOk.and (hP : StepsOk step P s as) (hQ : StepsOk step Q s as) :
    StepsOk step (fun s a => P s a ∧ Q s a) s as := by
  induction as generalizing s with
  | nil => trivial
  | cons a as ih => exact ⟨⟨hP.1, hQ.1⟩, ih hP.2 hQ.2⟩

theorem StepsOk.mono (hPQ : ∀ s a, P s a → Q s a) (h : StepsOk step P s as) :
    StepsOk step Q s as := by
  induction as generalizing s with
  | nil => trivial
  | cons a as ih => exact ⟨hPQ s a h.1, ih h.2⟩

theorem stepsOk_congr {P P' : σ → α → Prop} (hI : ∀ s a, I s → I (step s a))
    (hP : ∀ s a, I s → (P s a ↔ P' s a)) (hs : I s) :
    StepsOk step P s as ↔ StepsOk step P' s as := by
  induction as generalizing s with
  | nil => exact Iff.rfl
  | cons a as ih => exact and_congr (hP s a hs) (ih (hI s a hs))

theorem run_inv (hstep : ∀ s a, I s → I (step s a)) (hs : I s) (as : List α) :
    I (run step s as) := by
  induction as generalizing s with
  | nil => exact hs
  | cons a as ih => exact ih (hstep s a hs)

theorem along_of_inv (hstep : ∀ s a, I s → P s a → I (step s a)) (hs : I s)
    (hP : StepsOk step P s as) : Along step I s as := by
  induction as generalizing s with
  | nil => exact hs
  | cons a as ih => exact ⟨hs, ih (hstep s a hs hP.1) hP.2⟩

theorem StepsOk.of_inv (hstep : ∀ s a, I s → P s a → I (step s a))
    (hQ : ∀ s a, I s → P s a → Q s a) (hs : I s) (hP : StepsOk step P s as) :
    StepsOk step Q s as := by
  induction as generalizing s with
  | nil => trivial
  | cons a as ih => exact ⟨hQ s a hs hP.1, ih (hstep s a hs hP.1) hP.2⟩

theorem kept_along {I C K : σ → Prop} (hI : ∀ s a, I s → P s a → I (step s a))
    (hK : ∀ s a, I s → P s a → C s → C (step s a) → K s → K (step s a)) (hs : I s) (hk : K s)
    (hP : StepsOk step P s as) (hC : Along step C s as) : K (run step s as) := by
  induction as generalizing s with
  | nil => exact hk
  | cons a as ih =>
    have hk' : K (step s a) := hK s a hs hP.1 hC.1 hC.2.head hk
    exact ih (hI s a hs hP.1) hk' hP.2 hC.2

theorem StepsOk.of_append {as bs : List α} (h : StepsOk step P s (as ++ bs)) :
    StepsOk step P s as ∧ StepsOk step P (run step s as) bs := by
  induction as generalizing s with
  | nil => exact ⟨trivial, h⟩
  | cons a as ih =>
    obtain ⟨has, hbs⟩ := ih h.2
    exact ⟨⟨h.1, has⟩, hbs⟩

/-- **A run stays good exactly when its steps do**: `I` is an invariant of all steps, and from a
good state (`Q`) a step leads to a good state exactly when it meets `P`. -/
theorem along_iff_stepsOk {I Q : σ → Prop} (hI : ∀ s a, I s → I (step s a))
    (hQ : ∀ s a, I s → Q s → (Q (step s a) ↔ P s a)) (hs : I s) (hq : Q s) (as : List α) :
    Along step Q s as ↔ StepsOk step P s as := by
  induction as generalizing s with
  | nil => exact ⟨fun _ => trivial, fun _ => hq⟩
  | cons a as ih =>
    constructor
    · rintro ⟨_, h⟩
      have hP : P s a := (hQ s a hs hq).mp h.head
      exact ⟨hP, (ih (hI s a hs) h.head).mp h⟩
    · rintro ⟨hP, h⟩
      have hq' : Q (step s a) := (hQ s a hs hq).mpr hP
      exact ⟨hq, (ih (hI s a hs) hq').mpr h⟩

end

section
variable {τ : Type} {step : σ → α → σ} {wide : τ → α → τ} {f : τ → σ}

theorem stepsOk_map (hf : ∀ t a, f (wide t a) = step (f t) a) (P : σ → α → Prop) (t : τ)
    (as : List α) : StepsOk wide (fun t a => P (f t) a) t as ↔ StepsOk step P (f t) as := by
  induction as generalizing t with
  | nil => exact Iff.rfl
  | cons a as ih =>
    refine and_congr Iff.rfl ?_
    rw [ih, hf]

end

/-- the last action that `sel` selects, if there is one, was taken in a state that meets `Q` -/
def LastMet (step : σ → α → σ) (sel : α → Bool) (Q : σ → Prop) (s : σ) (as : List α) : Prop :=
  ∀ pre a post, as = pre ++ a :: post → sel a = true → (∀ b ∈ post, sel b = false) →
    Q (run step s pre)

section
variable {step : σ → α → σ} {sel : α → Bool} {Q : σ → Prop} {s : σ} {as : List α} {b : α}

theorem lastMet_nil : LastMet step sel Q s [] :=
  fun pre a post e => absurd e (by simp)

theorem lastMet_snoc_of_sel (hb : sel b = true) :
    LastMet step sel Q s (as ++ [b]) ↔ Q (run step s as) := by
  constructor
  · intro h
    exact h as b [] rfl hb (nofun)
  intro h pre a post e _ hpost
  rcases post.eq_nil_or_concat with rfl | ⟨post', c, rfl⟩
  · obtain ⟨rfl, _⟩ := append_inj' e rfl
    exact h
  have e' : as ++ [b] = (pre ++ a :: post') ++ [c] := by simpa using e
  have hc := hpost c (by simp)
  rw [← head_eq_of_cons_eq (append_inj' e' rfl).2, hb] at hc
  cases hc

theorem lastMet_snoc_of_not (hb : sel b = false) :
    LastMet step sel Q s (as ++ [b]) ↔ LastMet step sel Q s as := by
  constructor
  · intro h pre a post e ha hpost
    refine h pre a (post ++ [b]) (by simp [e]) ha fun c hc => ?_
    rcases mem_append.mp hc with hc | hc
    · exact hpost c hc
    · rw [mem_singleton.mp hc]
      exact hb
  · intro h pre a post e ha hpost
    rcases post.eq_nil_or_concat with rfl | ⟨post', c, rfl⟩
    · obtain ⟨_, hab⟩ := append_inj' e rfl
      rw [← head_eq_of_cons_eq hab, hb] at ha
      cases ha
    · have e' : as ++ [b] = (pre ++ a :: post') ++ [c] := by simpa using e
      exact h pre a post' (append_inj' e' rfl).1 ha fun d hd => hpost d (by simp [hd])

end

/-- the step that only records the action: its states are the histories -/
def extend (h : List α) (a : α) : List α := h ++ [a]

theorem run_extend (h as : List α) : run extend h as = h ++ as := by
  induction as generalizing h with
  | nil => exact (append_nil h).symm
  | cons a as ih => rw [run_cons, ih, extend, append_assoc, singleton_append]

/-- every action of the list meets `P`, which may look at the actions before it -/
def Every (P : List α → α → Prop) (as : List α) : Prop := StepsOk extend P [] as

instance (P : List α → α → Prop) [∀ h a, Decidable (P h a)] (as : List α) :
    Decidable (Every P as) :=
  inferInstanceAs (Decidable (StepsOk extend P [] as))

theorem every_snoc (P : List α → α → Prop) (as : List α) (b : α) :
    Every P (as ++ [b]) ↔ Every P as ∧ P as b := by
  unfold Every
  rw [stepsOk_snoc, run_extend, nil_append]

theorem history_induct {I : List α → Prop} (hnil : I []) (hstep : ∀ h a, I h → I (h ++ [a]))
    (as : List α) : I as := by
  have h : I (run extend [] as) := run_inv hstep hnil as
  rwa [run_extend, nil_append] at h

end Run

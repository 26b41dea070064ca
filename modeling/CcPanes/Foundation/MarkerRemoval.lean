/-!
# Removing every occurrence of a marker, in one pass

`removeAll m text` deletes the occurrences of the word `m` from left to right, each search
starting after the previous match.  The result can contain `m` again: the pieces around deleted
occurrences may join.
-/

set_option linter.unusedSectionVars false

namespace MarkerRemoval
open List
variable {α : Type} [DecidableEq α]

/-- delete `m`, the first `skip` symbols being the rest of a match -/
def removeFrom (m : List α) : (skip : Nat) → List α → List α
  | _, [] => []
  | skip + 1, _ :: l => removeFrom m skip l
  | 0, c :: l =>
    if m.isPrefixOf (c :: l) then removeFrom m (m.length - 1) l else c :: removeFrom m 0 l

def removeAll (m text : List α) : List α := removeFrom m 0 text

theorem removeFrom_eq (m : List α) (k : Nat) (l : List α) :
    removeFrom m k l = removeAll m (l.drop k) := by
  induction l generalizing k with
  | nil => cases k <;> rfl
  | cons c l ih =>
    cases k with
    | zero => rfl
    | succ k => exact ih k

theorem removeAll_marker (e : α) (t l : List α) :
    removeAll (e :: t) (e :: t ++ l) = removeAll (e :: t) l := by
  have hpre : (e :: t).isPrefixOf (e :: (t ++ l)) = true :=
    isPrefixOf_iff_prefix.mpr (prefix_append (e :: t) l)
  show (if (e :: t).isPrefixOf (e :: (t ++ l)) then
      removeFrom (e :: t) ((e :: t).length - 1) (t ++ l) else _) = _
  rw [if_pos hpre, removeFrom_eq, length_cons, Nat.add_sub_cancel, drop_left]

theorem removeAll_cons (m : List α) (c : α) (l : List α) (h : ¬ m <+: c :: l) :
    removeAll m (c :: l) = c :: removeAll m l := by
  have hpre : ¬ m.isPrefixOf (c :: l) = true := fun hp => h (List.isPrefixOf_iff_prefix.mp hp)
  show (if m.isPrefixOf (c :: l) then _ else c :: removeFrom m 0 l) = _
  rw [if_neg hpre]
  rfl

/-- the pass as a relation between text and result -/
inductive Removal (m : List α) : List α → List α → Prop
  | nil : Removal m [] []
  | marker {l o : List α} : Removal m l o → Removal m (m ++ l) o
  | keep {c : α} {l o : List α} : ¬ m <+: c :: l → Removal m l o → Removal m (c :: l) (c :: o)

theorem removal_removeAll (e : α) (t : List α) :
    ∀ (n : Nat) (text : List α), text.length ≤ n →
      Removal (e :: t) text (removeAll (e :: t) text) := by
  intro n
  induction n with
  | zero =>
    intro text hlen
    obtain rfl := length_eq_zero_iff.mp (Nat.le_zero.mp hlen)
    exact Removal.nil
  | succ n ih =>
    intro text hlen
    cases text with
    | nil => exact Removal.nil
    | cons c l =>
      by_cases hpre : e :: t <+: c :: l
      · obtain ⟨l', hl'⟩ := hpre
        have hlen' : l'.length ≤ n := by
          have hcount : (e :: t ++ l').length = (c :: l).length := by rw [hl']
          simp only [length_append, length_cons] at hcount hlen
          omega
        rw [← hl', removeAll_marker]
        exact Removal.marker (ih l' hlen')
      · rw [removeAll_cons _ c l hpre]
        exact Removal.keep hpre (ih l (Nat.le_of_succ_le_succ hlen))

theorem removal (e : α) (t text : List α) :
    Removal (e :: t) text (removeAll (e :: t) text) :=
  removal_removeAll e t text.length text (Nat.le_refl _)

/-! ## reassembly -/

/-- `w` is `cs` with copies of `m` inserted before some of its symbols -/
inductive Spread (m : List α) : List α → List α → Prop
  | nil : Spread m [] []
  | symbol (c : α) {cs w : List α} : Spread m cs w → Spread m (c :: cs) (c :: w)
  | marker {c : α} {cs w : List α} : Spread m (c :: cs) w → Spread m (c :: cs) (m ++ w)

/-- the text has a factor that is the marker with at least one copy of the marker inserted -/
def Reassembles (e : α) (t text : List α) : Prop :=
  ∃ pre w post, text = pre ++ e :: (w ++ post) ∧ Spread (e :: t) t w ∧ w ≠ t

theorem Removal.spread {m text o : List α} (h : Removal m text o) :
    ∀ cs y, o = cs ++ y → ∃ w post, text = w ++ post ∧ Spread m cs w ∧ Removal m post y := by
  induction h with
  | nil =>
    intro cs y e
    obtain ⟨rfl, rfl⟩ := append_eq_nil_iff.mp e.symm
    exact ⟨[], [], rfl, Spread.nil, Removal.nil⟩
  | @marker l o hl ih =>
    intro cs y e
    cases cs with
    | nil => exact ⟨[], m ++ l, rfl, Spread.nil, by rw [← show o = y from e]; exact hl.marker⟩
    | cons c cs =>
      obtain ⟨w, post, rfl, hw, hpost⟩ := ih (c :: cs) y e
      exact ⟨m ++ w, post, (append_assoc ..).symm, hw.marker, hpost⟩
  | @keep c l o hc hl ih =>
    intro cs y e
    cases cs with
    | nil => exact ⟨[], c :: l, rfl, Spread.nil, by rw [← show c :: o = y from e]; exact hl.keep hc⟩
    | cons d cs =>
      obtain ⟨rfl, e'⟩ := cons.inj e
      obtain ⟨w, post, rfl, hw, hpost⟩ := ih cs y e'
      exact ⟨c :: w, post, rfl, Spread.symbol c hw, hpost⟩

theorem Removal.reassembles {e : α} {t text o : List α} (h : Removal (e :: t) text o) :
    ∀ x y, o = x ++ (e :: t ++ y) → Reassembles e t text := by
  induction h with
  | nil =>
    intro x y eq
    have hlen := congrArg length eq
    simp at hlen
  | @marker l o hl ih =>
    intro x y eq
    obtain ⟨pre, w, post, rfl, hw, hne⟩ := ih x y eq
    exact ⟨e :: t ++ pre, w, post, (append_assoc ..).symm, hw, hne⟩
  | @keep c l o hc hl ih =>
    intro x y eq
    cases x with
    | nil =>
      obtain ⟨rfl, eq'⟩ := cons.inj eq
      obtain ⟨w, post, rfl, hw, _⟩ := hl.spread t y eq'
      refine ⟨[], w, post, rfl, hw, ?_⟩
      -- without an insertion the pass would have taken this occurrence
      rintro rfl
      exact hc (prefix_append (c :: w) post)
    | cons d x =>
      obtain ⟨rfl, eq'⟩ := cons.inj eq
      obtain ⟨pre, w, post, rfl, hw, hne⟩ := ih x y eq'
      exact ⟨c :: pre, w, post, rfl, hw, hne⟩

theorem Spread.removeAll {e : α} {t cs w : List α} (h : Spread (e :: t) cs w) (hcs : e ∉ cs)
    (post : List α) :
    removeAll (e :: t) (w ++ post) = cs ++ MarkerRemoval.removeAll (e :: t) post := by
  induction h with
  | nil => rfl
  | @symbol c cs w _ ih =>
    have hc : e ≠ c := fun heq => hcs (heq ▸ mem_cons_self ..)
    have hpre : ¬ e :: t <+: c :: (w ++ post) := fun hp => hc (cons_prefix_cons.mp hp).1
    rw [cons_append, removeAll_cons _ c _ hpre, ih (fun hm => hcs (mem_cons_of_mem c hm)),
      cons_append]
  | marker _ ih => rw [append_assoc, removeAll_marker, ih hcs]

theorem Spread.not_prefix {e : α} {t cs w : List α} (h : Spread (e :: t) cs w) (hcs : e ∉ cs)
    (hne : w ≠ cs)
    (post : List α) : ¬ cs <+: w ++ post := by
  induction h with
  | nil => exact absurd rfl hne
  | @symbol c cs w _ ih =>
    intro hp
    exact ih (fun hm => hcs (mem_cons_of_mem c hm)) (fun heq => hne (congrArg (c :: ·) heq))
      (cons_prefix_cons.mp hp).2
  | @marker =>
    intro hp
    exact hcs ((cons_prefix_cons.mp hp).1 ▸ mem_cons_self ..)

section
variable {e : α} {t : List α} (he : e ∉ t)
include he

theorem prefix_append_cons {a l : List α} (ha : a ≠ []) (h : e :: t <+: a ++ e :: l) :
    e :: t <+: a := by
  obtain ⟨r, hr⟩ := h
  rcases append_eq_append_iff.mp hr with ⟨a', rfl, _⟩ | ⟨c, hm, hrest⟩
  · exact prefix_append _ a'
  cases a with
  | nil => exact absurd rfl ha
  | cons x a =>
    obtain ⟨rfl, ht⟩ := cons.inj hm
    cases c with
    | nil =>
      obtain rfl : t = a := ht.trans (append_nil a)
      exact prefix_refl _
    | cons =>
      obtain ⟨rfl, _⟩ := cons.inj hrest
      exact absurd (by rw [ht]; simp) he

theorem removeAll_append_cons (n : Nat) : ∀ (pre r : List α), pre.length ≤ n →
    removeAll (e :: t) (pre ++ e :: r) = removeAll (e :: t) pre ++ removeAll (e :: t) (e :: r) := by
  induction n with
  | zero =>
    intro pre r hlen
    obtain rfl := length_eq_zero_iff.mp (Nat.le_zero.mp hlen)
    rfl
  | succ n ih =>
    intro pre r hlen
    cases pre with
    | nil => rfl
    | cons c l =>
      by_cases hpre : e :: t <+: c :: l
      · obtain ⟨l', hl'⟩ := hpre
        have hlen' : l'.length ≤ n := by
          have hcount : (e :: t ++ l').length = (c :: l).length := by rw [hl']
          simp only [length_append, length_cons] at hcount hlen
          omega
        rw [← hl', append_assoc, removeAll_marker, removeAll_marker, ih l' r hlen']
      · have hpre' : ¬ e :: t <+: c :: (l ++ e :: r) := fun h =>
          hpre (prefix_append_cons he (cons_ne_nil c l) h)
        rw [cons_append, removeAll_cons _ c _ hpre', removeAll_cons _ c l hpre,
          ih l r (Nat.le_of_succ_le_succ hlen), cons_append]

/-- **The marker survives one pass exactly if the text reassembles it.** -/
theorem infix_removeAll_iff (text : List α) :
    e :: t <:+: removeAll (e :: t) text ↔ Reassembles e t text := by
  constructor
  · rintro ⟨x, y, hxy⟩
    exact (removal e t text).reassembles x y (by rw [← hxy, append_assoc])
  rintro ⟨pre, w, post, rfl, hw, hne⟩
  have hpre : ¬ e :: t <+: e :: (w ++ post) := fun hp =>
    hw.not_prefix he hne post (cons_prefix_cons.mp hp).2
  rw [removeAll_append_cons he pre.length pre _ (Nat.le_refl _), removeAll_cons _ e _ hpre,
    hw.removeAll he]
  exact ⟨removeAll (e :: t) pre, removeAll (e :: t) post, by simp⟩

theorem append_marker_eq {s a b : List α} (h : s ++ e :: t = a ++ (e :: t ++ b)) :
    b = [] ∨ e :: t <:+: s := by
  rcases append_eq_append_iff.mp h with ⟨a', rfl, htail⟩ | ⟨c, rfl, htail⟩
  · have hlen := congrArg length htail
    simp only [length_append, length_cons] at hlen
    exact .inl (length_eq_zero_iff.mp (by omega))
  cases c with
  | nil =>
    have hlen := congrArg length htail
    simp only [length_append, length_cons, length_nil] at hlen
    exact .inl (length_eq_zero_iff.mp (by omega))
  | cons x c =>
    have hp : e :: t <+: (x :: c) ++ e :: t := ⟨b, htail⟩
    have hin : e :: t <+: x :: c := prefix_append_cons he (cons_ne_nil x c) hp
    exact .inr (hin.isInfix.trans (suffix_append a (x :: c)).isInfix)

end

theorem removeAll_eq_self {m : List α} {text : List α} (h : ¬ m <:+: text) :
    removeAll m text = text := by
  induction text with
  | nil => rfl
  | cons c l ih =>
    rw [infix_cons_iff, not_or] at h
    rw [removeAll_cons m c l h.1, ih h.2]

end MarkerRemoval

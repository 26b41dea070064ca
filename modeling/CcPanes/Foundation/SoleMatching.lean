import Mathlib.Data.List.Perm.Basic
import Mathlib.Data.List.Nodup

/-!
# Places taken one after the other

Seekers come in some order.  One takes a place when just one free place fits it, and when no seeker
of its name has a place.  Who takes which place can depend on the order.
-/

namespace SoleMatching
open List

section
variable {σ π : Type*} (fits : σ → π → Bool) (places : List π)

def Sole (s : σ) (p : π) : Prop := places.filter (fits s) = [p]

variable {fits places}

theorem fits_of_sole {s : σ} {p : π} (h : Sole fits places s p) : fits s p = true :=
  (mem_filter.mp (h ▸ mem_singleton_self p)).2

theorem Sole.unique {s : σ} {p p' : π} (h : Sole fits places s p) (h' : Sole fits places s p') :
    p = p' := (cons.inj (h.symm.trans h')).1

end

variable {σ π κ : Type*} [DecidableEq π] [DecidableEq κ]

section
variable (fits : σ → π → Bool) (name : σ → κ) (places : List π)

def candidates (taken : List (σ × π)) (s : σ) : List π :=
  places.filter fun p => fits s p && !(taken.any fun t => t.2 = p)

def visit (taken : List (σ × π)) (s : σ) : List (σ × π) :=
  match candidates fits places taken s with
  | [p] => if taken.any fun t => name t.1 = name s then taken else taken ++ [(s, p)]
  | _ => taken

def visitAll (seekers : List σ) : List (σ × π) := seekers.foldl (visit fits name places) []

/-- The sole place of a seeker fits no other, among all places, with those that are not looked at, it
is the only one, and no other seeker of the name has a sole place. -/
structure Clear (all : List π) (seekers : List σ) : Prop where
  rival : ∀ s ∈ seekers, ∀ p, Sole fits places s p → ∀ s' ∈ seekers, fits s' p = true → s' = s
  hidden : ∀ s ∈ seekers, ∀ p, Sole fits places s p → ∀ p' ∈ all, fits s p' = true → p' = p
  names : ∀ s ∈ seekers, ∀ p, Sole fits places s p →
    ∀ s' ∈ seekers, name s' = name s → ∀ p', Sole fits places s' p' → s' = s

def Given (seekers : List σ) (k : κ) (p : π) : Prop :=
  ∃ s, (s, p) ∈ visitAll fits name places seekers ∧ name s = k

/-- In any order the same places go to the same names, and only to a seeker that fits nowhere else a
place that fits no other. -/
structure Settled (all : List π) (seekers : List σ) : Prop where
  same : ∀ order, order.Perm seekers → ∀ k p,
    Given fits name places order k p ↔ Given fits name places seekers k p
  exclusive : ∀ order, order.Perm seekers → ∀ s p, (s, p) ∈ visitAll fits name places order →
    fits s p = true ∧ (∀ s' ∈ seekers, fits s' p = true → s' = s) ∧
      ∀ p' ∈ all, fits s p' = true → p' = p

theorem visit_cases (taken : List (σ × π)) (s : σ) :
    visit fits name places taken s = taken ∨
    ∃ p, candidates fits places taken s = [p] ∧ (∀ t ∈ taken, name t.1 ≠ name s) ∧
      visit fits name places taken s = taken ++ [(s, p)] := by
  unfold visit
  split
  · next p hp =>
    split
    · exact .inl rfl
    · next hname =>
      refine .inr ⟨p, hp, fun t ht heq => hname ?_, rfl⟩
      exact any_eq_true.mpr ⟨t, ht, decide_eq_true heq⟩
  · exact .inl rfl

theorem mem_foldl_of_mem {taken : List (σ × π)} {t : σ × π} (h : t ∈ taken) (order : List σ) :
    t ∈ order.foldl (visit fits name places) taken := by
  induction order generalizing taken with
  | nil => exact h
  | cons s order ih =>
    apply ih
    obtain heq | ⟨p, -, -, heq⟩ := visit_cases fits name places taken s
    · rw [heq]
      exact h
    · rw [heq]
      exact mem_append_left _ h

theorem foldl_visit_names (taken : List (σ × π)) (order : List σ)
    (h : (taken.map fun t => name t.1).Nodup) :
    ((order.foldl (visit fits name places) taken).map fun t => name t.1).Nodup := by
  induction order generalizing taken with
  | nil => exact h
  | cons s order ih =>
    apply ih
    obtain heq | ⟨p, -, hname, heq⟩ :=
      visit_cases fits name places taken s
    · rw [heq]
      exact h
    rw [heq, map_append, nodup_append']
    refine ⟨h, nodup_singleton _, fun k hk hs => ?_⟩
    obtain ⟨t, ht, rfl⟩ := mem_map.mp hk
    exact hname t ht (mem_singleton.mp hs)

end

variable {fits : σ → π → Bool} {name : σ → κ} {places all : List π} {seekers : List σ}

variable {taken : List (σ × π)} {s : σ}

theorem candidates_eq (h : ∀ t ∈ taken, fits s t.2 = false) :
    candidates fits places taken s = places.filter (fits s) := by
  refine filter_congr fun p _ => ?_
  cases hfits : fits s p with
  | false => rfl
  | true =>
    have hfree : (taken.any fun t => decide (t.2 = p)) = false := by
      refine any_eq_false.mpr fun t ht heq => ?_
      rw [← of_decide_eq_true heq, h t ht] at hfits
      cases hfits
    rw [hfree]
    rfl

theorem visit_sole {p : π} (hsole : Sole fits places s p)
    (hfree : ∀ t ∈ taken, fits s t.2 = false) (hname : ∀ t ∈ taken, name t.1 ≠ name s) :
    visit fits name places taken s = taken ++ [(s, p)] := by
  have hnone : (taken.any fun t => decide (name t.1 = name s)) = false :=
    any_eq_false.mpr fun t ht heq => hname t ht (of_decide_eq_true heq)
  have hone : places.filter (fits s) = [p] := hsole
  unfold visit
  rw [candidates_eq hfree, hone]
  exact if_neg (by rw [hnone]; exact Bool.false_ne_true)

theorem visit_not_sole (hsole : ∀ p, ¬Sole fits places s p)
    (hfree : ∀ t ∈ taken, fits s t.2 = false) : visit fits name places taken s = taken := by
  unfold visit
  rw [candidates_eq hfree]
  split
  · next p hp => exact absurd hp (hsole p)
  · rfl

/-! ## all seekers -/

theorem mem_visitAll_first {p : π} (h : Sole fits places s p) (order : List σ) :
    (s, p) ∈ visitAll fits name places (s :: order) := by
  have hfirst : visit fits name places [] s = [(s, p)] :=
    visit_sole h (nofun) (nofun)
  show (s, p) ∈ order.foldl (visit fits name places) (visit fits name places [] s)
  rw [hfirst]
  exact mem_foldl_of_mem fits name places (mem_singleton_self _) order

theorem mem_foldl_visit (h : Clear fits name places all seekers) (done order : List σ)
    (taken : List (σ × π)) (hnodup : (done ++ order).Nodup) (hmem : ∀ s ∈ done ++ order, s ∈ seekers)
    (htaken : ∀ s p, (s, p) ∈ taken ↔ s ∈ done ∧ Sole fits places s p) (s : σ) (p : π) :
    (s, p) ∈ order.foldl (visit fits name places) taken ↔
      s ∈ done ++ order ∧ Sole fits places s p := by
  induction order generalizing done taken with
  | nil =>
    rw [append_nil]
    exact htaken s p
  | cons x order ih =>
    have hx : x ∈ seekers := hmem x (mem_append_right _ mem_cons_self)
    have hnew : x ∉ done := fun hdone =>
      (nodup_append'.mp hnodup).2.2 hdone mem_cons_self
    have hdone : ∀ t ∈ taken, t.1 ∈ done ∧ t.1 ∈ seekers ∧ Sole fits places t.1 t.2 := by
      intro t ht
      obtain ⟨hd, hsole⟩ := (htaken t.1 t.2).mp ht
      exact ⟨hd, hmem _ (mem_append_left _ hd), hsole⟩
    have hfree : ∀ t ∈ taken, fits x t.2 = false := by
      intro t ht
      obtain ⟨hd, hin, hsole⟩ := hdone t ht
      by_contra hfits
      exact hnew (h.rival t.1 hin t.2 hsole x hx (eq_true_of_ne_false hfits) ▸ hd)
    have hshift : done ++ x :: order = (done ++ [x]) ++ order := by
      rw [append_assoc]
      rfl
    rw [hshift] at hnodup hmem ⊢
    apply ih _ _ hnodup hmem
    intro s' p'
    by_cases hsole : ∃ q, Sole fits places x q
    · obtain ⟨q, hsole⟩ := hsole
      have hname : ∀ t ∈ taken, name t.1 ≠ name x := by
        intro t ht heq
        obtain ⟨hd, hin, hsole'⟩ := hdone t ht
        exact hnew (h.names x hx q hsole t.1 hin heq t.2 hsole' ▸ hd)
      rw [visit_sole hsole hfree hname, mem_append, mem_append, htaken,
        mem_singleton, mem_singleton, Prod.mk.injEq, or_and_right]
      refine or_congr_right (and_congr_right ?_)
      rintro rfl
      constructor
      · rintro rfl
        exact hsole
      · exact fun h' => h'.unique hsole
    · have hno : ∀ q, ¬Sole fits places x q := fun q hq => hsole ⟨q, hq⟩
      rw [visit_not_sole hno hfree, htaken, mem_append, mem_singleton, or_and_right]
      refine (or_iff_left ?_).symm
      rintro ⟨rfl, h'⟩
      exact hno p' h'

theorem mem_visitAll (h : Clear fits name places all seekers) (hnodup : seekers.Nodup)
    {order : List σ} (hperm : order.Perm seekers) (s : σ) (p : π) :
    (s, p) ∈ visitAll fits name places order ↔ s ∈ seekers ∧ Sole fits places s p := by
  have hrun := mem_foldl_visit h [] order []
    (hperm.nodup_iff.mpr hnodup) (fun s hs => hperm.mem_iff.mp hs)
    (fun s p => iff_of_false not_mem_nil fun h => nomatch h.1) s p
  rw [nil_append, hperm.mem_iff] at hrun
  exact hrun

theorem exists_first (h : s ∈ seekers) : ∃ order, (s :: order).Perm seekers := by
  obtain ⟨front, back, rfl⟩ := append_of_mem h
  exact ⟨front ++ back, perm_middle.symm⟩

theorem Settled.clear (h : Settled fits name places all seekers) :
    Clear fits name places all seekers := by
  have hfirst : ∀ s ∈ seekers, ∀ p, Sole fits places s p →
      ∃ order, order.Perm seekers ∧ (s, p) ∈ visitAll fits name places order := by
    intro s hs p hsole
    obtain ⟨order, hperm⟩ := exists_first hs
    exact ⟨s :: order, hperm, mem_visitAll_first hsole order⟩
  have hexclusive : ∀ s ∈ seekers, ∀ p, Sole fits places s p →
      (∀ s' ∈ seekers, fits s' p = true → s' = s) ∧ ∀ p' ∈ all, fits s p' = true → p' = p := by
    intro s hs p hsole
    obtain ⟨order, hperm, hin⟩ := hfirst s hs p hsole
    exact (h.exclusive order hperm s p hin).2
  refine ⟨fun s hs p hsole => (hexclusive s hs p hsole).1,
    fun s hs p hsole => (hexclusive s hs p hsole).2, fun s hs p hsole s' hs' hname p' hsole' => ?_⟩
  -- with `s'` first, the place of `s` goes to `s` all the same: two of one name have places
  obtain ⟨order, hperm, hin⟩ := hfirst s hs p hsole
  obtain ⟨order', hperm', hin'⟩ := hfirst s' hs' p' hsole'
  obtain ⟨s'', hin'', -⟩ := (h.same order' hperm' _ p).mpr
    ((h.same order hperm _ p).mp ⟨s, hin, rfl⟩)
  have hs'' : s = s'' := (h.exclusive order' hperm' s'' p hin'').2.1 s hs (fits_of_sole hsole)
  rw [← hs''] at hin''
  have hnames := foldl_visit_names fits name places [] order' nodup_nil
  exact congrArg Prod.fst (inj_on_of_nodup_map hnames hin' hin'' hname)

theorem settled_iff (hnodup : seekers.Nodup) :
    Settled fits name places all seekers ↔ Clear fits name places all seekers := by
  refine ⟨Settled.clear, fun h => ⟨fun order hperm k p => ?_, fun order hperm s p hin => ?_⟩⟩
  · refine exists_congr fun s => and_congr_left fun _ => ?_
    rw [mem_visitAll h hnodup hperm, mem_visitAll h hnodup (List.Perm.refl seekers)]
  · obtain ⟨hs, hsole⟩ := (mem_visitAll h hnodup hperm s p).mp hin
    exact ⟨(fits_of_sole hsole), h.rival s hs p hsole, h.hidden s hs p hsole⟩

end SoleMatching

import Mathlib.Data.List.Chain

/-!
# Ranges that cover what a predicate picks

Ranges of the indices of a list, in order and disjoint, outside of which `p` holds of nothing.
-/

namespace CoveringRanges
open List
variable {α : Type}

/-- `start` is where the run began that goes on at the index `i` -/
def runsFrom (p : α → Bool) : Nat → Option Nat → List α → List (Nat × Nat)
  | _, none, [] => []
  | i, some start, [] => [(start, i)]
  | i, start, a :: l =>
    if p a then runsFrom p (i + 1) (some (start.getD i)) l
    else
      match start with
      | none => runsFrom p (i + 1) none l
      | some start => (start, i) :: runsFrom p (i + 1) none l

def runs (p : α → Bool) (l : List α) : List (Nat × Nat) := runsFrom p 0 none l

def mergeInto (d : Nat) (merged : List (Nat × Nat)) (r : Nat × Nat) : List (Nat × Nat) :=
  match merged.getLast? with
  | none => merged ++ [r]
  | some last => if r.1 ≤ last.2 + d then merged.dropLast ++ [(last.1, r.2)] else merged ++ [r]

def merge (d : Nat) (rs : List (Nat × Nat)) : List (Nat × Nat) := rs.foldl (mergeInto d) []

def widen (c len : Nat) (r : Nat × Nat) : Nat × Nat := (r.1 - c, min (r.2 + c) len)

def slice (l : List α) (r : Nat × Nat) : List α := (l.take r.2).drop r.1

theorem slice_append (pre win rest : List α) :
    slice (pre ++ (win ++ rest)) (pre.length, pre.length + win.length) = win := by
  unfold slice
  rw [← append_assoc, ← length_append, take_left, drop_left]

/-- The list `l`, which begins at the index `lo`, is cut along the ranges; `P` holds of each of them
and of its elements. -/
def Covers (p : α → Bool) (P : Nat → List α → Prop) : Nat → List α → List (Nat × Nat) → Prop
  | _, l, [] => ∀ a ∈ l, p a = false
  | lo, l, (s, e) :: rs => ∃ kept win rest, l = kept ++ (win ++ rest) ∧ s = lo + kept.length ∧
      e = s + win.length ∧ (∀ a ∈ kept, p a = false) ∧ P s win ∧ Covers p P e rest rs

/-- the ranges are more than `d` apart -/
def Apart (d : Nat) (rs : List (Nat × Nat)) : Prop := rs.IsChain fun r r' => r.2 + d < r'.1

def NonEmpty (_ : Nat) (win : List α) : Prop := win ≠ []

/-- the range begins at the start of the list, or outside of `p` -/
def Framed (p : α → Bool) (s : Nat) (win : List α) : Prop :=
  ∃ a l, win = a :: l ∧ (s = 0 ∨ p a = false)

section
variable {p : α → Bool} {P : Nat → List α → Prop} {rs : List (Nat × Nat)} {l : List α}

theorem Covers.prepend {lo : Nat} (kept : List α) (hkept : ∀ a ∈ kept, p a = false)
    (h : Covers p P (lo + kept.length) l rs) : Covers p P lo (kept ++ l) rs := by
  cases rs with
  | nil =>
    intro a ha
    obtain ha | ha := mem_append.mp ha
    · exact hkept a ha
    · exact h a ha
  | cons =>
    obtain ⟨kept', win, rest, rfl, hs, he, hkept', hP, hrs⟩ := h
    refine ⟨kept ++ kept', win, rest, (append_assoc ..).symm, ?_, he, ?_, hP, hrs⟩
    · rw [hs, length_append, Nat.add_assoc]
    intro a ha
    obtain ha | ha := mem_append.mp ha
    · exact hkept a ha
    · exact hkept' a ha

theorem covers_runsFrom (l : List α) :
    (∀ i, Covers p NonEmpty i l (runsFrom p i none l)) ∧
      ∀ start run, run ≠ [] →
        Covers p NonEmpty start (run ++ l) (runsFrom p (start + run.length) (some start) l) := by
  induction l with
  | nil =>
    refine ⟨nofun, fun start run hrun => ?_⟩
    exact ⟨[], run, [], rfl, rfl, rfl, nofun, hrun,
      nofun⟩
  | cons a l ih =>
    refine ⟨fun i => ?_, fun start run hrun => ?_⟩
    · unfold runsFrom
      split
      next => exact ih.2 i [a] (cons_ne_nil a [])
      next ha =>
        refine Covers.prepend [a] (fun b hb => ?_) (ih.1 (i + 1))
        rw [mem_singleton.mp hb]
        exact Bool.eq_false_iff.mpr ha
    unfold runsFrom
    split
    next =>
      have h := ih.2 start (run ++ [a]) (append_ne_nil_of_left_ne_nil hrun [a])
      rw [append_assoc, length_append] at h
      exact h
    next ha =>
      refine ⟨[], run, a :: l, rfl, rfl, rfl, nofun, hrun, ?_⟩
      refine Covers.prepend [a] (fun b hb => ?_) (ih.1 (start + run.length + 1))
      rw [mem_singleton.mp hb]
      exact Bool.eq_false_iff.mpr ha

theorem covers_runs (l : List α) : Covers p NonEmpty 0 l (runs p l) := (covers_runsFrom l).1 0

theorem runsFrom_map {β : Type} (f : β → α) (l : List β) (i : Nat) (start : Option Nat) :
    runsFrom (fun b => p (f b)) i start l = runsFrom p i start (l.map f) := by
  induction l generalizing i start with
  | nil => cases start <;> rfl
  | cons b l ih =>
    cases start with
    | none =>
      exact if_congr Iff.rfl (ih ..) (ih ..)
    | some =>
      exact if_congr Iff.rfl (ih ..) (congrArg (_ :: ·) (ih ..))

theorem runs_map {β : Type} (f : β → α) (l : List β) :
    runs (fun b => p (f b)) l = runs p (l.map f) := runsFrom_map f l 0 none

/-! ## merging -/

/-- `merge`, with the last of the merged ranges at hand -/
def mergeFrom (d : Nat) : Nat × Nat → List (Nat × Nat) → List (Nat × Nat)
  | last, [] => [last]
  | last, r :: rs =>
    if r.1 ≤ last.2 + d then mergeFrom d (last.1, r.2) rs else last :: mergeFrom d r rs

theorem foldl_mergeInto (d : Nat) (acc : List (Nat × Nat)) (last : Nat × Nat)
    (rs : List (Nat × Nat)) :
    rs.foldl (mergeInto d) (acc ++ [last]) = acc ++ mergeFrom d last rs := by
  induction rs generalizing acc last with
  | nil => rfl
  | cons r rs ih =>
    have hinto : mergeInto d (acc ++ [last]) r =
        if r.1 ≤ last.2 + d then acc ++ [(last.1, r.2)] else acc ++ [last] ++ [r] := by
      unfold mergeInto
      rw [getLast?_concat, dropLast_concat]
    rw [foldl_cons, hinto]
    unfold mergeFrom
    split
    next => exact ih acc (last.1, r.2)
    next => rw [ih (acc ++ [last]) r, append_assoc]; rfl

theorem merge_cons (d : Nat) (r : Nat × Nat) (rs : List (Nat × Nat)) :
    merge d (r :: rs) = mergeFrom d r rs := foldl_mergeInto d [] r rs

theorem covers_mergeFrom (d : Nat) {lo : Nat} {r : Nat × Nat}
    (h : Covers p NonEmpty lo l (r :: rs)) : Covers p NonEmpty lo l (mergeFrom d r rs) := by
  induction rs generalizing lo l r with
  | nil => exact h
  | cons r' rs ih =>
    obtain ⟨kept, win, rest, rfl, hs, he, hkept, hwin, hrest⟩ := h
    unfold mergeFrom
    split
    next =>
      -- the elements between the two ranges become part of the range
      obtain ⟨kept', win', rest', rfl, hs', he', -, -, hrest'⟩ := hrest
      refine ih ⟨kept, win ++ (kept' ++ win'), rest', ?_, hs, ?_, hkept, ?_, hrest'⟩
      · simp only [append_assoc]
      · simp only [length_append]
        omega
      · exact append_ne_nil_of_left_ne_nil hwin _
    next => exact ⟨kept, win, rest, rfl, hs, he, hkept, hwin, ih hrest⟩

theorem covers_merge (d : Nat) {lo : Nat} (h : Covers p NonEmpty lo l rs) :
    Covers p NonEmpty lo l (merge d rs) := by
  cases rs with
  | nil => exact h
  | cons =>
    rw [merge_cons]
    exact covers_mergeFrom d h

theorem mergeFrom_eq_cons (d : Nat) (last : Nat × Nat) (rs : List (Nat × Nat)) :
    ∃ e rest, mergeFrom d last rs = (last.1, e) :: rest := by
  induction rs generalizing last with
  | nil => exact ⟨last.2, [], rfl⟩
  | cons r rs ih =>
    unfold mergeFrom
    split
    next => exact ih (last.1, r.2)
    next => exact ⟨last.2, _, rfl⟩

theorem apart_mergeFrom (d : Nat) (last : Nat × Nat) (rs : List (Nat × Nat)) :
    Apart d (mergeFrom d last rs) := by
  induction rs generalizing last with
  | nil => exact .singleton last
  | cons r rs ih =>
    unfold mergeFrom
    split
    next => exact ih (last.1, r.2)
    next hd =>
      have hr := ih r
      obtain ⟨e, rest, heq⟩ := mergeFrom_eq_cons d r rs
      rw [heq] at hr ⊢
      exact isChain_cons_cons.mpr ⟨Nat.lt_of_not_le hd, hr⟩

theorem apart_merge (d : Nat) (rs : List (Nat × Nat)) : Apart d (merge d rs) := by
  cases rs with
  | nil => exact .nil
  | cons r rs =>
    rw [merge_cons]
    exact apart_mergeFrom d r rs

theorem covers_widen_drop {c : Nat} (hc : 0 < c) {lo t len : Nat} (h : Covers p NonEmpty lo l rs)
    (hapart : Apart (2 * c) rs) (htc : t ≤ c) (htl : t ≤ l.length) (hlen : len = lo + l.length)
    (hfirst : ∀ r ∈ rs.head?, lo = 0 ∧ t = 0 ∨ lo + 2 * c < r.1) :
    Covers p (Framed p) (lo + t) (l.drop t) (rs.map (widen c len)) := by
  induction rs generalizing lo t l with
  | nil => exact fun a ha => h a (mem_of_mem_drop ha)
  | cons r rs ih =>
    obtain ⟨s, e⟩ := r
    obtain ⟨kept, win, rest, rfl, hs, he, hkept, hwin, hrest⟩ := h
    have hfirst : lo = 0 ∧ t = 0 ∨ lo + 2 * c < s := hfirst _ rfl
    have hl : (kept ++ (win ++ rest)).drop t = (kept.take (kept.length - c)).drop t ++
        ((kept.drop (kept.length - c) ++ win ++ rest.take c) ++ rest.drop c) := by
      have hk : kept.drop t =
          (kept.take (kept.length - c)).drop t ++ kept.drop (kept.length - c) := by
        rw [← drop_append_of_le_length (by rw [length_take]; omega), take_append_drop]
      rw [drop_append_of_le_length (by omega), hk]
      simp only [append_assoc, take_append_drop]
    simp only [length_append] at hlen
    refine ⟨(kept.take (kept.length - c)).drop t,
      kept.drop (kept.length - c) ++ win ++ rest.take c, rest.drop c, hl, ?_, ?_, ?_, ?_, ?_⟩
    · show s - c = _
      rw [length_drop, length_take]
      omega
    · show min (e + c) len = s - c + _
      simp only [length_append, length_drop, length_take]
      omega
    · exact fun a ha => hkept a (mem_of_mem_take (mem_of_mem_drop ha))
    · show Framed p (s - c) _
      cases hk : kept.drop (kept.length - c) with
      | nil =>
        have hlen : kept.length = 0 := by
          have := drop_eq_nil_iff.mp hk
          omega
        obtain ⟨a, win', rfl⟩ := exists_cons_of_ne_nil hwin
        exact ⟨a, win' ++ rest.take c, rfl, .inl (by omega)⟩
      | cons a kept' =>
        refine ⟨a, kept' ++ win ++ rest.take c, rfl, .inr (hkept a ?_)⟩
        exact mem_of_mem_drop (hk ▸ mem_cons_self)
    · have hnext : ∀ r ∈ rs.head?, e = 0 ∧ min c rest.length = 0 ∨ e + 2 * c < r.1 := by
        intro r hr
        cases rs with
        | nil => cases hr
        | cons =>
          cases hr
          exact .inr (isChain_cons_cons.mp hapart).1
      have h := ih hrest hapart.tail (Nat.min_le_left c rest.length) (Nat.min_le_right c _)
        (by omega) hnext
      have hdrop : rest.drop (min c rest.length) = rest.drop c := by
        obtain hle | hle := Nat.le_total c rest.length
        · rw [Nat.min_eq_left hle]
        · rw [Nat.min_eq_right hle, drop_length, drop_eq_nil_of_le hle]
      rw [hdrop] at h
      have hmin : e + min c rest.length = min (e + c) len := by omega
      rw [hmin] at h
      exact h

theorem covers_widen {c : Nat} (hc : 0 < c) (h : Covers p NonEmpty 0 l rs)
    (hapart : Apart (2 * c) rs) : Covers p (Framed p) 0 l (rs.map (widen c l.length)) :=
  covers_widen_drop hc h hapart (Nat.zero_le c) (Nat.zero_le _) (Nat.zero_add _).symm
    fun _ _ => .inl ⟨rfl, rfl⟩

end

end CoveringRanges

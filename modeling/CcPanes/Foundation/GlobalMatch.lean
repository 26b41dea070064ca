import Mathlib.Data.List.Infix

/-!
# All matches of a pattern, from left to right

A pattern is looked for at every position of a text, and the search goes on behind each match.
-/

namespace GlobalMatch
open List Option

/-- `text m` is what the match `m` consists of -/
structure Matcher (α μ : Type) where
  find : List α → Option μ
  Valid : μ → Prop
  text : μ → List α
  text_ne : ∀ {m}, Valid m → text m ≠ []
  find_eq_some : ∀ {s m}, find s = some m ↔ Valid m ∧ text m <+: s

variable {α μ : Type} (M : Matcher α μ)

/-- `skip` symbols of the last match are still to pass -/
def tokensFrom : (skip : Nat) → List α → List (α ⊕ μ)
  | _, [] => []
  | skip + 1, _ :: l => tokensFrom skip l
  | 0, c :: l =>
    match M.find (c :: l) with
    | some m => .inr m :: tokensFrom ((M.text m).length - 1) l
    | none => .inl c :: tokensFrom 0 l

def tokens (x : List α) : List (α ⊕ μ) := tokensFrom M 0 x

def matchAll (x : List α) : List μ := (tokens M x).filterMap Sum.getRight?

def replace (f : μ → List α) (x : List α) : List α :=
  (tokens M x).flatMap (Sum.elim (fun c => [c]) f)

theorem tokensFrom_eq (skip : Nat) (x : List α) :
    tokensFrom M skip x = tokens M (x.drop skip) := by
  induction x generalizing skip with
  | nil => cases skip <;> rfl
  | cons c l ih =>
    cases skip with
    | zero => rfl
    | succ skip => exact ih skip

variable {M} {c : α}

theorem tokens_symbol {l : List α} (h : M.find (c :: l) = none) :
    tokens M (c :: l) = .inl c :: tokens M l := by
  unfold tokens
  conv => lhs; unfold tokensFrom
  rw [h]

theorem tokens_match {m : μ} (hm : M.Valid m) (l : List α) :
    tokens M (M.text m ++ l) = .inr m :: tokens M l := by
  have hfind : M.find (M.text m ++ l) = some m :=
    M.find_eq_some.mpr ⟨hm, prefix_append _ _⟩
  obtain ⟨c, s, hs⟩ := exists_cons_of_ne_nil (M.text_ne hm)
  have hlen : (M.text m).length - 1 = s.length := by
    rw [hs]
    rfl
  rw [hs, cons_append] at hfind ⊢
  show tokensFrom M 0 (c :: (s ++ l)) = _
  unfold tokensFrom
  rw [hfind]
  show _ :: tokensFrom M _ _ = _
  rw [tokensFrom_eq, hlen, drop_left]

theorem reading_induction {P : List α → Prop} (nil : P [])
    (symbol : ∀ c l, M.find (c :: l) = none → P l → P (c :: l))
    (found : ∀ m l, M.Valid m → P l → P (M.text m ++ l)) (x : List α) : P x := by
  induction hn : x.length using Nat.strongRecOn generalizing x with
  | _ n ih =>
    subst hn
    cases x with
    | nil => exact nil
    | cons c l =>
      cases hfind : M.find (c :: l) with
      | none => exact symbol c l hfind (ih l.length (Nat.lt_succ_self _) l rfl)
      | some m =>
        obtain ⟨hm, rest, hrest⟩ := M.find_eq_some.mp hfind
        have hpos := length_pos_iff.mpr (M.text_ne hm)
        have hlen : rest.length < (c :: l).length := by
          rw [← hrest, length_append]
          omega
        rw [← hrest]
        exact found m rest hm (ih rest.length hlen rest rfl)

/-! ## cuts -/

variable (M) in
/-- a match starts in `x` and ends in `y` -/
def Spans (x y : List α) : Prop :=
  ∃ m s a, M.Valid m ∧ s ≠ [] ∧ a ≠ [] ∧ M.text m = s ++ a ∧ s <:+ x ∧ a <+: y

theorem Spans.mono {x x' y y' : List α} (hx : x <:+ x') (hy : y <+: y') (h : Spans M x y) :
    Spans M x' y' := by
  obtain ⟨m, s, a, hm, hs, ha, htext, hsx, hay⟩ := h
  exact ⟨m, s, a, hm, hs, ha, htext, hsx.trans hx, hay.trans hy⟩

theorem find_append {l y : List α} (h : ¬ Spans M (c :: l) y) (hfind : M.find (c :: l) = none) :
    M.find (c :: (l ++ y)) = none := by
  refine eq_none_iff_forall_ne_some.mpr fun m hsome => ?_
  obtain ⟨hm, hpre⟩ := M.find_eq_some.mp hsome
  obtain ⟨rest, hrest⟩ := hpre
  have hwhole : ¬ M.text m <+: c :: l := fun hpre => by
    rw [M.find_eq_some.mpr ⟨hm, hpre⟩] at hfind
    cases hfind
  rw [← cons_append] at hrest
  rcases append_eq_append_iff.mp hrest with ⟨b, hb, -⟩ | ⟨b, hb, hy⟩
  · exact hwhole ⟨b, hb.symm⟩
  · refine h ⟨m, c :: l, b, hm, by simp, ?_, hb, suffix_rfl, ⟨rest, hy.symm⟩⟩
    rintro rfl
    exact hwhole ⟨[], by rw [hb, append_nil, append_nil]⟩

variable {x y : List α}

/-- **A cut that no match spans cuts the tokens.** -/
theorem tokens_append (h : ¬ Spans M x y) : tokens M (x ++ y) = tokens M x ++ tokens M y := by
  induction x using reading_induction (M := M) with
  | nil => rfl
  | symbol c l hfind ih =>
    have hl : ¬ Spans M l y := fun hl => h (hl.mono (suffix_cons c l) prefix_rfl)
    rw [cons_append, tokens_symbol (find_append h hfind), tokens_symbol hfind, ih hl]
    rfl
  | found m l hm ih =>
    have hl : ¬ Spans M l y := fun hl => h (hl.mono (suffix_append _ l) prefix_rfl)
    rw [append_assoc, tokens_match hm, tokens_match hm, ih hl]
    rfl

theorem matchAll_append (h : ¬ Spans M x y) :
    matchAll M (x ++ y) = matchAll M x ++ matchAll M y := by
  rw [matchAll, tokens_append h, filterMap_append]
  rfl

theorem replace_append (f : μ → List α) (h : ¬ Spans M x y) :
    replace M f (x ++ y) = replace M f x ++ replace M f y := by
  rw [replace, tokens_append h, flatMap_append]
  rfl

theorem replace_symbol (f : μ → List α) {l : List α} (h : M.find (c :: l) = none) :
    replace M f (c :: l) = c :: replace M f l := by
  rw [replace, tokens_symbol h]
  rfl

theorem replace_match (f : μ → List α) {m : μ} (hm : M.Valid m) (l : List α) :
    replace M f (M.text m ++ l) = f m ++ replace M f l := by
  rw [replace, tokens_match hm, flatMap_cons]
  rfl

theorem tokens_of_none (h : ∀ m, M.Valid m → ¬ M.text m <:+: x) : tokens M x = x.map .inl := by
  induction x using reading_induction (M := M) with
  | nil => rfl
  | symbol c l hfind ih =>
    rw [tokens_symbol hfind, map_cons,
      ih fun m hm hin => h m hm (hin.trans (suffix_cons c l).isInfix)]
  | found m l hm => exact absurd (prefix_append _ l).isInfix (h m hm)

theorem matchAll_of_none (h : ∀ m, M.Valid m → ¬ M.text m <:+: x) : matchAll M x = [] := by
  rw [matchAll, tokens_of_none h, filterMap_map]
  exact filterMap_eq_nil_iff.mpr fun c _ => rfl

theorem replace_of_none (f : μ → List α) (h : ∀ m, M.Valid m → ¬ M.text m <:+: x) :
    replace M f x = x := by
  rw [replace, tokens_of_none h, flatMap_map]
  exact flatMap_singleton' x

variable (M) in
def Partial (x : List α) : Prop := ∃ m b, M.Valid m ∧ x ≠ [] ∧ b ≠ [] ∧ M.text m = x ++ b

variable (M) in
/-- `p` is the longest end of `z ++ p` that may be the start of a match -/
structure Carries (z p : List α) : Prop where
  start : p = [] ∨ Partial M p
  longest : ∀ s, s <:+ z ++ p → Partial M s → s.length ≤ p.length

variable (M) in
def NonOverlapping : Prop :=
  ∀ m m' s a b, M.Valid m → M.Valid m' → M.text m = s ++ a → M.text m' = a ++ b → s = [] ∨ a = []

/-- **No match runs into what is held back**, whatever comes next -/
theorem Carries.not_spans {z p : List α} (h : Carries M z p) (hM : NonOverlapping M)
    (y : List α) : ¬ Spans M z (p ++ y) := by
  rintro ⟨m, s, a, hm, hs, ha, htext, hsz, hay⟩
  have hpy : p <+: p ++ y := prefix_append p y
  by_cases hle : a.length ≤ p.length
  · -- the match ends inside `p`, which starts a match of its own
    obtain ⟨r, rfl⟩ := prefix_of_prefix_length_le hay hpy hle
    rcases h.start with hnil | ⟨m', b, hm', -, -, htext'⟩
    · exact ha (append_eq_nil_iff.mp hnil).1
    rw [append_assoc] at htext'
    rcases hM m m' s a (r ++ b) hm hm' htext htext' with hnil | hnil
    · exact hs hnil
    · exact ha hnil
  -- the match goes on behind `p`, so more would have been held back
  obtain ⟨r, rfl⟩ := prefix_of_prefix_length_le hpy hay (by omega)
  have hr : r ≠ [] := by
    rintro rfl
    rw [append_nil] at hle
    exact hle (Nat.le_refl _)
  obtain ⟨u, rfl⟩ := hsz
  have hpartial : Partial M (s ++ p) :=
    ⟨m, r, hm, fun hnil => hs (append_eq_nil_iff.mp hnil).1, hr, by
      rw [htext, append_assoc]⟩
  have hlong := h.longest (s ++ p) ⟨u, by rw [append_assoc]⟩ hpartial
  rw [length_append] at hlong
  have hpos := length_pos_iff.mpr hs
  omega

theorem Carries.replace_append {z p : List α} (h : Carries M z p) (hM : NonOverlapping M)
    (f : μ → List α) (y : List α) :
    replace M f (z ++ (p ++ y)) = replace M f z ++ replace M f (p ++ y) :=
  GlobalMatch.replace_append f (h.not_spans hM y)

variable (M) in
/-- a match begins with `e` and does not contain it again -/
def Anchored (e : α) : Prop := ∀ m, M.Valid m → ∃ body, M.text m = e :: body ∧ e ∉ body

variable {e : α} {f : μ → List α} {Bad Gone : μ → Prop}

theorem Anchored.not_spans (he : Anchored M e) (x : List α) {y : List α}
    (hy : y = [] ∨ y.head? = some e) : ¬ Spans M x y := by
  rintro ⟨m, s, a, hm, hs, ha, htext, -, hay⟩
  obtain ⟨body, hbody, hnot⟩ := he m hm
  obtain ⟨c, s, rfl⟩ := exists_cons_of_ne_nil hs
  obtain ⟨d, a, rfl⟩ := exists_cons_of_ne_nil ha
  obtain ⟨rest, hrest⟩ := hay
  have hd : d = e := by
    rcases hy with hy | hy
    · rw [hy] at hrest
      cases hrest
    · rw [← hrest] at hy
      exact some.inj hy
  rw [hbody, cons_append] at htext
  refine hnot ?_
  rw [(cons.inj htext).2, hd]
  simp

theorem find_of_ne (he : Anchored M e) (hc : c ≠ e) (l : List α) : M.find (c :: l) = none := by
  refine eq_none_iff_forall_ne_some.mpr fun m hsome => hc ?_
  obtain ⟨hm, hpre⟩ := M.find_eq_some.mp hsome
  obtain ⟨body, hbody, -⟩ := he m hm
  rw [hbody, cons_prefix_cons] at hpre
  exact hpre.1.symm

theorem eq_of_prefix {m m' : μ} (hm : M.Valid m) (hm' : M.Valid m') (h : M.text m <+: x)
    (h' : M.text m' <+: x) : m = m' :=
  some.inj ((M.find_eq_some.mpr ⟨hm, h⟩).symm.trans (M.find_eq_some.mpr ⟨hm', h'⟩))

variable (M) in
def HasBad (Bad : μ → Prop) (x : List α) : Prop := ∃ m, M.Valid m ∧ Bad m ∧ M.text m <:+: x

variable (M) in
/-- bad matches go or are replaced by a shorter one that is not bad, all others stay -/
structure Cleaning (Bad Gone : μ → Prop) (f : μ → List α) : Prop where
  same : ∀ m, M.Valid m → ¬ Bad m → f m = M.text m
  gone : ∀ m, M.Valid m → Gone m → f m = []
  better : ∀ m, M.Valid m → Bad m → ¬ Gone m → ∃ m', M.Valid m' ∧ ¬ Bad m' ∧ f m = M.text m'
  shorter : ∀ m, M.Valid m → Bad m → (f m).length < (M.text m).length

namespace Cleaning
variable (hf : Cleaning M Bad Gone f)
include hf

theorem nothing_or_good {m : μ} (hm : M.Valid m) :
    (Gone m ∧ f m = []) ∨ ∃ m', M.Valid m' ∧ ¬ Bad m' ∧ f m = M.text m' := by
  by_cases hgone : Gone m
  · exact .inl ⟨hgone, hf.gone m hm hgone⟩
  refine .inr ?_
  by_cases hbad : Bad m
  · exact hf.better m hm hbad hgone
  · exact ⟨m, hm, hbad, hf.same m hm hbad⟩

theorem length_le {m : μ} (hm : M.Valid m) : (f m).length ≤ (M.text m).length := by
  by_cases hbad : Bad m
  · exact (hf.shorter m hm hbad).le
  · rw [hf.same m hm hbad]

theorem replace_length_le (x : List α) : (replace M f x).length ≤ x.length := by
  induction x using reading_induction (M := M) with
  | nil => exact Nat.le_refl _
  | symbol c l hfind =>
    rw [replace_symbol f hfind, length_cons, length_cons]
    omega
  | found m l hm =>
    have hle := hf.length_le hm
    rw [replace_match f hm, length_append, length_append]
    omega

theorem replace_eq_self_iff (he : Anchored M e) (x : List α) :
    replace M f x = x ↔ ¬ HasBad M Bad x := by
  constructor
  · rintro hsame ⟨m, hm, hbad, a, b, rfl⟩
    obtain ⟨body, hbody, -⟩ := he m hm
    have hcut : ¬ Spans M a (M.text m ++ b) :=
      he.not_spans a (.inr (by rw [hbody, cons_append, head?_cons]))
    have hlen := congrArg length hsame
    have ha := hf.replace_length_le a
    have hb := hf.replace_length_le b
    have hm' := hf.shorter m hm hbad
    rw [append_assoc, replace_append f hcut, replace_match f hm] at hlen
    simp only [length_append] at hlen
    omega
  intro h
  induction x using reading_induction (M := M) with
  | nil => rfl
  | symbol c l hfind ih =>
    rw [replace_symbol f hfind, ih]
    rintro ⟨m, hm, hbad, hin⟩
    exact h ⟨m, hm, hbad, hin.trans (suffix_cons c l).isInfix⟩
  | found m l hm ih =>
    have hgood : ¬ Bad m := fun hbad => h ⟨m, hm, hbad, (prefix_append _ l).isInfix⟩
    rw [replace_match f hm, hf.same m hm hgood, ih]
    rintro ⟨m', hm', hbad, hin⟩
    exact h ⟨m', hm', hbad, hin.trans (suffix_append _ l).isInfix⟩

end Cleaning

/-! ## interrupted matches -/

/-- `w` is `cs` with words of `G` inserted before some of its symbols -/
inductive Spread (G : List α → Prop) : List α → List α → Prop
  | nil : Spread G [] []
  | symbol (c : α) {cs w : List α} : Spread G cs w → Spread G (c :: cs) (c :: w)
  | inserted {g cs w : List α} {c : α} :
      G g → Spread G (c :: cs) w → Spread G (c :: cs) (g ++ w)

variable (M) in
def Removed (Gone : μ → Prop) (g : List α) : Prop := ∃ m, M.Valid m ∧ Gone m ∧ g = M.text m

variable (M) in
/-- a bad match stands in the text with removed matches in between -/
def Interrupted (Bad Gone : μ → Prop) (x : List α) : Prop :=
  ∃ m c body w pre post, M.Valid m ∧ Bad m ∧ M.text m = c :: body ∧
    x = pre ++ c :: (w ++ post) ∧ Spread (Removed M Gone) body w ∧ w ≠ body

theorem Interrupted.append_left (h : Interrupted M Bad Gone x) (a : List α) :
    Interrupted M Bad Gone (a ++ x) := by
  obtain ⟨m, c, body, w, pre, post, hm, hbad, htext, rfl, hw, hne⟩ := h
  exact ⟨m, c, body, w, a ++ pre, post, hm, hbad, htext, (append_assoc ..).symm, hw, hne⟩

theorem Spread.first_inserted {cs w : List α} (he : Anchored M e)
    (h : Spread (Removed M Gone) cs w) (hne : w ≠ cs) :
    ∃ a b l, cs = a ++ b ∧ b ≠ [] ∧ w = a ++ e :: l := by
  induction h with
  | nil => exact absurd rfl hne
  | @symbol c cs w hw ih =>
    obtain ⟨a, b, l, rfl, hb, rfl⟩ := ih fun heq => hne (congrArg (c :: ·) heq)
    exact ⟨c :: a, b, l, rfl, hb, rfl⟩
  | @inserted g cs w c hg =>
    obtain ⟨m, hm, -, rfl⟩ := hg
    obtain ⟨body, hbody, -⟩ := he m hm
    exact ⟨[], c :: cs, body ++ w, rfl, by simp, by rw [hbody]; rfl⟩

theorem Spread.replace {cs w : List α} (he : Anchored M e) (hf : Cleaning M Bad Gone f)
    (h : Spread (Removed M Gone) cs w) (hcs : e ∉ cs) (post : List α) :
    replace M f (w ++ post) = cs ++ GlobalMatch.replace M f post := by
  induction h with
  | nil => rfl
  | @symbol c cs w hw ih =>
    rw [mem_cons, not_or] at hcs
    rw [cons_append, replace_symbol f (find_of_ne he (Ne.symm hcs.1) _), ih hcs.2, cons_append]
  | @inserted g cs w c hg hw ih =>
    obtain ⟨m, hm, hgone, rfl⟩ := hg
    rw [append_assoc, replace_match f hm, hf.gone m hm hgone, nil_append, ih hcs]

section
variable (he : Anchored M e) (hf : Cleaning M Bad Gone f)
include he hf

theorem spread_of_replace {x cs y : List α} (h : replace M f x = cs ++ y) (hcs : e ∉ cs) :
    ∃ w post, x = w ++ post ∧ Spread (Removed M Gone) cs w := by
  induction x using reading_induction (M := M) generalizing cs with
  | nil =>
    obtain ⟨rfl, -⟩ := append_eq_nil_iff.mp h.symm
    exact ⟨[], [], rfl, .nil⟩
  | symbol c l hfind ih =>
    cases cs with
    | nil => exact ⟨[], c :: l, rfl, .nil⟩
    | cons =>
      rw [replace_symbol f hfind, cons_append] at h
      obtain ⟨rfl, htail⟩ := cons.inj h
      obtain ⟨w, post, rfl, hw⟩ := ih htail fun hmem => hcs (mem_cons_of_mem c hmem)
      exact ⟨c :: w, post, rfl, .symbol c hw⟩
  | found m l hm ih =>
    cases cs with
    | nil => exact ⟨[], M.text m ++ l, rfl, .nil⟩
    | cons =>
      rw [replace_match f hm] at h
      rcases hf.nothing_or_good hm with ⟨hgone, hnone⟩ | ⟨m', hm', -, hm''⟩
      · rw [hnone, nil_append] at h
        obtain ⟨w, post, rfl, hw⟩ := ih h hcs
        exact ⟨M.text m ++ w, post, (append_assoc ..).symm, .inserted ⟨m, hm, hgone, rfl⟩ hw⟩
      · obtain ⟨body, hbody, -⟩ := he m' hm'
        rw [hm'', hbody, cons_append, cons_append] at h
        exact absurd (mem_cons.mpr (.inl (cons.inj h).1)) hcs

theorem interrupted_of_bad {x a y : List α} {m : μ} (hm : M.Valid m) (hbad : Bad m)
    (h : replace M f x = a ++ (M.text m ++ y)) : Interrupted M Bad Gone x := by
  obtain ⟨body, hbody, hnot⟩ := he m hm
  induction x using reading_induction (M := M) generalizing a with
  | nil =>
    have hnil := (append_eq_nil_iff.mp (show a ++ (M.text m ++ y) = [] from h.symm)).2
    exact absurd (append_eq_nil_iff.mp hnil).1 (M.text_ne hm)
  | symbol c l hfind ih =>
    rw [replace_symbol f hfind] at h
    cases a with
    | nil =>
      rw [hbody, nil_append, cons_append] at h
      obtain ⟨rfl, htail⟩ := cons.inj h
      obtain ⟨w, post, rfl, hw⟩ := spread_of_replace he hf htail hnot
      refine ⟨m, c, body, w, [], post, hm, hbad, hbody, rfl, hw, ?_⟩
      -- without an insertion the match would have been found
      rintro rfl
      rw [M.find_eq_some.mpr ⟨hm, by rw [hbody]; exact prefix_append (c :: w) post⟩] at hfind
      cases hfind
    | cons =>
      exact (ih (cons.inj h).2).append_left [c]
  | found m₀ l hm₀ ih =>
    rw [replace_match f hm₀] at h
    refine Interrupted.append_left ?_ _
    rcases hf.nothing_or_good hm₀ with ⟨-, hnone⟩ | ⟨m', hm', hgood, hm''⟩
    · rw [hnone] at h
      exact ih h
    rw [hm''] at h
    obtain ⟨body', hbody', hnot'⟩ := he m' hm'
    rcases append_eq_append_iff.mp h with ⟨a', -, hl⟩ | ⟨c, hc, hl⟩
    · exact ih hl
    cases c with
    | nil => exact ih (a := []) hl.symm
    | cons =>
      -- the two begin at the same place
      rw [hbody, cons_append, cons_append] at hl
      obtain ⟨rfl, -⟩ := cons.inj hl
      cases a with
      | nil =>
        obtain rfl := eq_of_prefix hm hm' ⟨y, h.symm⟩ (prefix_append _ _)
        exact absurd hbad hgood
      | cons =>
        rw [hbody'] at hc
        refine absurd ?_ hnot'
        rw [(cons.inj hc).2]
        simp

/-- **A bad match occurs in the result exactly if the text has an interrupted one.** -/
theorem bad_replace_iff (x : List α) :
    HasBad M Bad (replace M f x) ↔ Interrupted M Bad Gone x := by
  constructor
  · rintro ⟨m, hm, hbad, a, b, hab⟩
    exact interrupted_of_bad he hf hm hbad (by rw [← hab, append_assoc])
  rintro ⟨m, c, body, w, pre, post, hm, hbad, htext, rfl, hw, hne⟩
  obtain ⟨body', hbody', hnot⟩ := he m hm
  rw [htext] at hbody'
  obtain ⟨rfl, rfl⟩ := cons.inj hbody'
  have hfind : M.find (c :: (w ++ post)) = none := by
    refine eq_none_iff_forall_ne_some.mpr fun m' hsome => ?_
    obtain ⟨hm', hpre⟩ := M.find_eq_some.mp hsome
    obtain ⟨short, hshort, hnot'⟩ := he m' hm'
    obtain ⟨a, b, l, rfl, hb, rfl⟩ := hw.first_inserted he hne
    -- the match found ends before the insertion, so it would start `m`
    rw [hshort, cons_prefix_cons, append_assoc] at hpre
    have hin : short <+: a := by
      rcases prefix_or_prefix_of_prefix hpre.2 (prefix_append a _) with h | ⟨t, rfl⟩
      · exact h
      have ht := (prefix_append_right_inj a).mp hpre.2
      cases t with
      | nil => rw [append_nil]
      | cons =>
        rw [cons_append, cons_prefix_cons] at ht
        exact absurd (by rw [ht.1]; simp) hnot'
    have hstart : M.text m' <+: M.text m := by
      rw [hshort, htext]
      exact cons_prefix_cons.mpr ⟨rfl, hin.trans (prefix_append a b)⟩
    obtain rfl := eq_of_prefix hm' hm hstart prefix_rfl
    rw [htext] at hshort
    have hlen := hin.length_le
    rw [← (cons.inj hshort).2, length_append] at hlen
    exact hb (length_eq_zero_iff.mp (by omega))
  have hcut : ¬ Spans M pre (c :: (w ++ post)) := he.not_spans pre (.inr rfl)
  rw [replace_append f hcut, replace_symbol f hfind, hw.replace he hf hnot]
  exact ⟨m, hm, hbad, replace M f pre, replace M f post, by
    rw [htext, append_assoc, cons_append]⟩

end

end GlobalMatch

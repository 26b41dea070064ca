import CcPanes.Terminal.TitleScan

/-!
# The carry between the chunks

`OscResumeCapture::scan` of `osc_resume_capture.rs`.  A chunk is scanned behind the last 96
characters of what came before, so a title is caught if it lies in this window, and only then.

* `carry_iff`  the chunks leave the prefix of the whole stream just if the titles that they
  catch do.
-/

namespace CcPanes
open List Option

def tailCarryChars : Nat := 96

/-- the resolver threads and their throttle are left out; `resolved` has the ids of
`emit_resolved` -/
structure OscResumeCapture where
  tail : List Char := []
  lastSeenPrefix : Option (List Char) := none
  done : Bool := false
  resolved : List (List Char) := []

/-- `combined.chars().rev().take(TAIL_CARRY_CHARS)`, turned round again -/
def carry (combined : List Char) : List Char := (combined.reverse.take tailCarryChars).reverse

namespace OscResumeCapture

def emitResolved (s : OscResumeCapture) (fullId : List Char) : OscResumeCapture :=
  if s.done then s else { s with done := true, resolved := s.resolved ++ [fullId] }

def scan (s : OscResumeCapture) (data : List Char) : Option OscResumeCapture :=
  if s.done then some s
  else
    let combined := s.tail ++ data
    let s := { s with tail := [] }
    match extractLastTitleUuidPrefix combined with
    | .running | .panic => none
    | .done (some pre) =>
      if byteLen pre ≥ fullUuidLen then (sliceTo pre fullUuidLen).map s.emitResolved
      else some { s with lastSeenPrefix := some pre, tail := carry combined }
    | .done none => some { s with tail := carry combined }

def scanAll (cs : List (List Char)) : Option OscResumeCapture := cs.foldlM scan {}

end OscResumeCapture

/-! ## the titles that are caught -/

def windowStart (l : List (List Char)) : Nat := l.flatten.length - tailCarryChars

/-- the title lies in the window of the chunk `c`, and no open one is before it there -/
def CaughtIn (l : List (List Char)) (c : List Char) (p : Nat) (text : List Char) : Prop :=
  windowStart l ≤ p ∧ TitleAt (l.flatten ++ c) p text ∧
    ∀ q, windowStart l ≤ q → q < p → ¬OpenAt (l.flatten ++ c) q

def CaughtRunIn (l : List (List Char)) (c : List Char) (p : Nat) (v : Option (List Char)) : Prop :=
  ∃ text u, CaughtIn l c p text ∧ v = some u ∧ Latest (UuidRun text) none (some u)

def CaughtRun (cs : List (List Char)) (p : Nat) (v : Option (List Char)) : Prop :=
  ∃ l c, l ++ [c] <+: cs ∧ CaughtRunIn l c p v

/-- the capture goes on behind the chunks: the last run caught has never been a full id -/
def Unresolved (cs : List (List Char)) : Prop :=
  ∀ l u, l <+: cs → Latest (CaughtRun l) none (some u) → u.length < fullUuidLen

def RecordsPrefix (cs : List (List Char)) (v : Option (List Char)) : Prop :=
  ∃ l, l <+: cs ∧ Unresolved l ∧ (l = cs ∨ ∃ c, l ++ [c] <+: cs ∧ ¬Unresolved (l ++ [c])) ∧
    Latest (CaughtRun l) none v

def CutFree (cs : List (List Char)) : Prop :=
  ∀ l c p text, l ++ [c] <+: cs → Unresolved l → CaughtIn l c p text → ¬CutsChar text

/-- the condition: in the chunks and in the whole stream no title is cut, and the titles that the
chunks catch leave the prefix that those of the whole stream leave -/
def CarrySafe (cs : List (List Char)) : Prop :=
  CutFree cs ∧ CutFree [cs.flatten] ∧ ∀ v, RecordsPrefix cs v → RecordsPrefix [cs.flatten] v

/-- the chunks and the whole stream end without a panic, with the same prefix -/
def ChunkIndependent (cs : List (List Char)) : Prop :=
  ∃ s t, OscResumeCapture.scanAll cs = some s ∧ OscResumeCapture.scanAll [cs.flatten] = some t ∧
    s.lastSeenPrefix = t.lastSeenPrefix

section
variable {l cs : List (List Char)} {c text : List Char} {p : Nat} {v : Option (List Char)}

theorem carry_eq (x : List Char) : carry x = x.drop (x.length - tailCarryChars) := by
  rw [carry, reverse_take, reverse_reverse, length_reverse]

theorem windowStart_le (l : List (List Char)) : windowStart l ≤ l.flatten.length :=
  Nat.sub_le _ _

theorem carry_carry (x d : List Char) : carry (carry x ++ d) = carry (x ++ d) := by
  rw [carry_eq, carry_eq x, carry_eq, ← drop_append_of_le_length (Nat.sub_le _ _),
    drop_drop, length_append, length_drop, length_append]
  have hindex : ∀ a b m : Nat, a - m + (a + b - (a - m) - m) = a + b - m := by
    intro a b m
    omega
  rw [hindex]

theorem window_append (l : List (List Char)) (c : List Char) :
    l.flatten ++ c = l.flatten.take (windowStart l) ++ (carry l.flatten ++ c) := by
  rw [carry_eq, ← append_assoc]
  congr 1
  exact (take_append_drop _ _).symm

theorem caughtIn_iff : CaughtIn l c p text ↔
    windowStart l ≤ p ∧ Seen (carry l.flatten ++ c) (p - windowStart l) text := by
  have hlen : (l.flatten.take (windowStart l)).length = windowStart l := by
    rw [length_take, Nat.min_eq_left (windowStart_le l)]
  have htitle : ∀ p text, windowStart l ≤ p → (TitleAt (l.flatten ++ c) p text ↔
      TitleAt (carry l.flatten ++ c) (p - windowStart l) text) := by
    intro p text hp
    rw [window_append, titleAt_append (by rw [hlen]; exact hp), hlen]
  have hopen : ∀ p, windowStart l ≤ p → (OpenAt (l.flatten ++ c) p ↔
      OpenAt (carry l.flatten ++ c) (p - windowStart l)) := by
    intro p hp
    rw [window_append, openAt_append (by rw [hlen]; exact hp), hlen]
  constructor
  · intro h
    obtain ⟨hp, h, hbefore⟩ := h
    refine ⟨hp, (htitle p text hp).mp h, ?_⟩
    intro q hq hopen'
    refine hbefore (windowStart l + q) (Nat.le_add_right _ _) (by omega) ?_
    rw [hopen _ (Nat.le_add_right _ _), Nat.add_sub_cancel_left]
    exact hopen'
  · intro h
    obtain ⟨hp, h, hbefore⟩ := h
    refine ⟨hp, (htitle p text hp).mpr h, ?_⟩
    intro q hq hlt hopen'
    exact hbefore (q - windowStart l) (by omega) ((hopen q hq).mp hopen')

theorem caughtRunIn_iff : CaughtRunIn l c p v ↔
    windowStart l ≤ p ∧ SeenRun (carry l.flatten ++ c) (p - windowStart l) v := by
  rw [seenRun_iff]
  unfold CaughtRunIn
  simp only [caughtIn_iff]
  constructor
  · intro h
    obtain ⟨text, u, ⟨hp, hseen⟩, h⟩ := h
    exact ⟨hp, text, u, hseen, h⟩
  · intro h
    obtain ⟨hp, text, u, hseen, h⟩ := h
    exact ⟨text, u, ⟨hp, hseen⟩, h⟩

theorem caughtRun_snoc : CaughtRun (l ++ [c]) p v ↔ CaughtRun l p v ∨ CaughtRunIn l c p v := by
  constructor
  · intro h
    obtain ⟨l', c', hprefix, h⟩ := h
    rcases prefix_concat_iff.mp hprefix with e | hprefix
    · obtain ⟨rfl, ec⟩ := append_inj' e rfl
      obtain rfl := singleton_inj.mp ec
      exact .inr h
    · exact .inl ⟨l', c', hprefix, h⟩
  · intro h
    rcases h with ⟨l', c', hprefix, h⟩ | h
    · exact ⟨l', c', hprefix.trans (prefix_append _ _), h⟩
    · exact ⟨l, c, prefix_refl _, h⟩

end

section
variable {data more text body : List Char} {p q : Nat}

theorem IntroAt.append (h : IntroAt data p body) : IntroAt (data ++ more) p (body ++ more) := by
  have hlt := h.lt
  obtain ⟨d, e, hd⟩ := h
  refine ⟨d, ?_, hd⟩
  rw [drop_append_of_le_length (Nat.le_of_lt hlt), e]
  rfl

theorem TitleAt.append (h : TitleAt data p text) : TitleAt (data ++ more) p text := by
  obtain ⟨t, post, hintro, h⟩ := h
  refine ⟨t, post ++ more, ?_, h⟩
  have happend : IntroAt (data ++ more) p (text ++ t :: post ++ more) := hintro.append
  rw [append_assoc] at happend
  exact happend

theorem OpenAt.of_append (h : OpenAt (data ++ more) q) (hq : q < p) (htitle : TitleAt data p text) :
    OpenAt data q := by
  obtain ⟨t, post, hintro, -⟩ := htitle
  obtain ⟨body, ⟨d, e, hd⟩, hopen⟩ := h
  have hesc := hintro.esc
  have hp := hintro.lt
  rw [drop_append_of_le_length (by omega)] at e
  have hat : ∀ k, q + k = p → (escChar :: ']' :: d :: ';' :: body)[k]? = some escChar := by
    intro k hk
    rw [← e, getElem?_append_left (by rw [length_drop]; omega), getElem?_drop, hk]
    exact hesc
  obtain ⟨k, hk⟩ : ∃ k, q + (k + 4) = p := by
    have hone : q + 1 ≠ p := by
      intro hk
      cases hat 1 hk
    have htwo : q + 2 ≠ p := by
      intro hk
      cases hat 2 hk
      exact absurd hd (by decide)
    have hthree : q + 3 ≠ p := by
      intro hk
      cases hat 3 hk
    exact ⟨p - q - 4, by omega⟩
  have hbody : body[k]? = some escChar := hat (k + 4) hk
  have hlen : (data.drop q).length = data.length - q := length_drop
  obtain ⟨body', hdata⟩ : ∃ body', data.drop q = escChar :: ']' :: d :: ';' :: body' := by
    match hdrop : data.drop q with
    | a :: b :: c :: e' :: body' =>
      rw [hdrop] at e
      injection e with ea e
      injection e with eb e
      injection e with ec e
      injection e with ed e
      exact ⟨body', by rw [ea, eb, ec, ed]⟩
    | [] | [_] | [_, _] | [_, _, _] =>
      rw [hdrop] at hlen
      simp only [length_cons, length_nil] at hlen
      omega
  refine ⟨body', ⟨d, hdata, hd⟩, ?_⟩
  have e' : body' ++ more = body := by
    rw [hdata] at e
    simpa using e
  subst e'
  have hk' : k < body'.length := by
    rw [hdata] at hlen
    simp only [length_cons] at hlen
    omega
  have hlong : maxTitleLen ≤ k := by
    by_contra hlt
    have hmem : escChar ∈ (body' ++ more).take maxTitleLen := by
      refine mem_of_getElem? (i := k) ?_
      rw [getElem?_take_of_lt (by omega)]
      exact hbody
    have hnot := all_eq_true.mp hopen _ hmem
    exact absurd hnot (by decide)
  rw [take_append_of_le_length (by omega)] at hopen
  exact hopen

end

/-! ## the caught titles -/

section
variable {l cs : List (List Char)} {c text : List Char} {p : Nat} {v : Option (List Char)}

theorem CaughtRun.titleRun (h : CaughtRun l p v) : TitleRun l.flatten p v := by
  obtain ⟨l', c', ⟨r, rfl⟩, h⟩ := h
  obtain ⟨text, u, ⟨-, htitle, -⟩, h⟩ := h
  refine ⟨text, u, ?_, h⟩
  have happend : TitleAt (l'.flatten ++ c' ++ r.flatten) p text := htitle.append
  simpa using happend

theorem caughtRun_oneValue (l : List (List Char)) : OneValue (CaughtRun l) := by
  intro p v w h h'
  exact titleRun_oneValue l.flatten p v w h.titleRun h'.titleRun

theorem windowStart_mono {l l' : List (List Char)} (h : l' <+: l) :
    windowStart l' ≤ windowStart l := by
  obtain ⟨r, rfl⟩ := h
  unfold windowStart
  rw [flatten_append, length_append]
  omega

theorem CaughtRun.again (h : CaughtRun l p v) (hp : windowStart l ≤ p) (c : List Char) :
    CaughtRunIn l c p v := by
  obtain ⟨l', c', hprefix, h⟩ := h
  have hmono := windowStart_mono ((prefix_append l' [c']).trans hprefix)
  obtain ⟨r, rfl⟩ := hprefix
  obtain ⟨text, u, ⟨-, htitle, hopen⟩, h⟩ := h
  have e : (l' ++ [c'] ++ r).flatten ++ c = (l'.flatten ++ c') ++ (r.flatten ++ c) := by simp
  refine ⟨text, u, ⟨hp, ?_, ?_⟩, h⟩
  · rw [e]
    exact htitle.append
  · intro q hq hlt hopen'
    rw [e] at hopen'
    exact hopen q (Nat.le_trans hmono hq) hlt (hopen'.of_append hlt htitle)

theorem latest_snoc {v w : Option (List Char)} (h : Latest (CaughtRun l) none v)
    (hc : Latest (SeenRun (carry l.flatten ++ c)) none w) :
    Latest (CaughtRun (l ++ [c])) none (w.or v) := by
  have hin : Latest (CaughtRunIn l c) v (w.or v) := by
    have hshift : ∀ p a, CaughtRunIn l c p a ↔
        windowStart l ≤ p ∧ SeenRun (carry l.flatten ++ c) (p - windowStart l) a :=
      fun p a => caughtRunIn_iff
    have hafter := hc.shift (windowStart l)
    cases hafter with
    | last hlast =>
      obtain ⟨p, ⟨hp, hseen⟩, hmax⟩ := hlast
      obtain ⟨text, u, -, rfl, -⟩ := (seenRun_iff w).mp hseen
      exact .last ⟨p, (hshift p _).mpr ⟨hp, hseen⟩, fun q b hq => hmax q b ((hshift q b).mp hq)⟩
    | none hnone =>
      exact .none fun p a ha => hnone p a ((hshift p a).mp ha)
  refine (h.union hin ?_).congr fun p a => caughtRun_snoc.symm
  intro p a q b hp hq
  by_cases hwindow : windowStart l ≤ p
  · exact ⟨p, a, hp.again hwindow c, Nat.le_refl p⟩
  · have hq' := (caughtRunIn_iff.mp hq).1
    exact ⟨q, b, hq, by omega⟩

theorem not_caughtRun_nil (p : Nat) (v : Option (List Char)) : ¬CaughtRun [] p v := by
  intro h
  obtain ⟨l, c, hprefix, -⟩ := h
  have hnil := prefix_nil.mp hprefix
  simp at hnil

theorem Unresolved.mono {l l' : List (List Char)} (h : Unresolved l) (hl : l' <+: l) :
    Unresolved l' := by
  intro m u hm hu
  exact h m u (hm.trans hl) hu

theorem CutFree.mono {l l' : List (List Char)} (h : CutFree l) (hl : l' <+: l) : CutFree l' := by
  intro m c p text hm hlive hcaught
  exact h m c p text (hm.trans hl) hlive hcaught

theorem recorded_iff (h : Unresolved l) : RecordsPrefix l v ↔ Latest (CaughtRun l) none v := by
  constructor
  · intro hrec
    obtain ⟨l', -, -, hend, hlatest⟩ := hrec
    rcases hend with rfl | ⟨c, hprefix, hnot⟩
    · exact hlatest
    · exact absurd (h.mono hprefix) hnot
  · intro hlatest
    exact ⟨l, prefix_refl l, h, .inl rfl, hlatest⟩

theorem recorded_unique {w : Option (List Char)} (h : RecordsPrefix cs v)
    (h' : RecordsPrefix cs w) : v = w := by
  have hlonger : ∀ l l' : List (List Char), l <+: l' → l' <+: cs → Unresolved l' →
      (l = cs ∨ ∃ c, l ++ [c] <+: cs ∧ ¬Unresolved (l ++ [c])) → l = l' := by
    intro l l' hll hl' hlive hend
    rcases hend with rfl | ⟨c, hprefix, hnot⟩
    · exact hll.eq_of_length (Nat.le_antisymm hll.length_le hl'.length_le)
    by_contra hne
    refine hnot (hlive.mono (prefix_of_prefix_length_le hprefix hl' ?_))
    rw [length_append, length_singleton]
    have hle := hll.length_le
    have hne' : l.length ≠ l'.length := fun e => hne (hll.eq_of_length e)
    omega
  obtain ⟨l, hl, hlive, hend, hlatest⟩ := h
  obtain ⟨l', hl', hlive', hend', hlatest'⟩ := h'
  obtain rfl : l = l' := by
    rcases prefix_or_prefix_of_prefix hl hl' with hll | hll
    · exact hlonger l l' hll hl' hlive' hend
    · exact (hlonger l' l hll hl hlive hend').symm
  exact hlatest.unique (caughtRun_oneValue l) hlatest'

end

theorem uuidRun_byteLen {text u : List Char} (h : Latest (UuidRun text) none (some u)) :
    byteLen u = u.length ∧ u.length ≤ fullUuidLen := by
  cases h with
  | last h =>
    obtain ⟨p, ⟨run, ⟨-, -, rfl⟩, hshape, hu⟩, -⟩ := h
    cases hu
    refine ⟨byteLen_ascii ?_, hshape.2.1⟩
    intro c hc
    exact isUuidChar_size (mem_takeWhile_imp ((List.rdropWhile_prefix _ _).subset hc))

theorem sliceTo_all (cs : List Char) : sliceTo cs (byteLen cs) = some cs := by
  have hslice := sliceTo_append cs []
  rw [append_nil] at hslice
  exact hslice

/-! ## the capture -/

def Captures (l : List (List Char)) (s : OscResumeCapture) : Prop :=
  CutFree l ∧ RecordsPrefix l s.lastSeenPrefix ∧
    (s.done = true ∧ ¬Unresolved l ∨ s.done = false ∧ Unresolved l ∧ s.tail = carry l.flatten)

section
variable {l cs : List (List Char)} {c : List Char} {s : OscResumeCapture}

theorem captures_nil : Captures [] {} := by
  have hnone : ∀ l : List (List Char), l <+: [] → ∀ p v, ¬CaughtRun l p v := by
    intro l hl
    obtain rfl := prefix_nil.mp hl
    exact not_caughtRun_nil
  have hlive : Unresolved [] := by
    intro l u hl hu
    cases hu with
    | last hu =>
      obtain ⟨p, hp, -⟩ := hu
      exact absurd hp (hnone l hl p _)
  refine ⟨?_, (recorded_iff hlive).mpr (.none not_caughtRun_nil), .inr ⟨rfl, hlive, rfl⟩⟩
  intro l c p text hl
  have hnil := prefix_nil.mp hl
  simp at hnil

theorem captures_done (h : CutFree l) {v : Option (List Char)} (hv : RecordsPrefix l v)
    (hend : ¬Unresolved l) :
    CutFree (l ++ [c]) ∧ RecordsPrefix (l ++ [c]) v ∧ ¬Unresolved (l ++ [c]) := by
  refine ⟨?_, ?_, fun hlive => hend (hlive.mono (prefix_append _ _))⟩
  · intro m d p text hm hlive hcaught
    rcases prefix_concat_iff.mp hm with e | hm
    · obtain ⟨rfl, -⟩ := append_inj' e rfl
      exact absurd hlive hend
    · exact h m d p text hm hlive hcaught
  · obtain ⟨m, hm, hlive, hstop, hlatest⟩ := hv
    refine ⟨m, hm.trans (prefix_append _ _), hlive, .inr ?_, hlatest⟩
    rcases hstop with rfl | ⟨d, hprefix, hnot⟩
    · exact absurd hlive hend
    · exact ⟨d, hprefix.trans (prefix_append _ _), hnot⟩

theorem cutFree_snoc (h : CutFree l)
    (hsafe : ∀ p text, Seen (carry l.flatten ++ c) p text → ¬CutsChar text) :
    CutFree (l ++ [c]) := by
  intro m d p text hm hlive hcaught
  rcases prefix_concat_iff.mp hm with e | hm
  · obtain ⟨rfl, ed⟩ := append_inj' e rfl
    obtain rfl := singleton_inj.mp ed
    exact hsafe _ text (caughtIn_iff.mp hcaught).2
  · exact h m d p text hm hlive hcaught

theorem unresolved_snoc (h : Unresolved l) {v : Option (List Char)}
    (hv : Latest (CaughtRun (l ++ [c])) none v) :
    Unresolved (l ++ [c]) ↔ ∀ u, v = some u → u.length < fullUuidLen := by
  constructor
  · intro hlive u hu
    subst hu
    exact hlive _ u (prefix_refl _) hv
  intro hshort m u hm hu
  rcases prefix_concat_iff.mp hm with rfl | hm
  · exact hshort u (hv.unique (caughtRun_oneValue _) hu)
  · exact h m u hm hu

theorem scan_captures (h : Captures l s) :
    s.scan c = none ∧ ¬CutFree (l ++ [c]) ∨
      ∃ s', s.scan c = some s' ∧ Captures (l ++ [c]) s' := by
  obtain ⟨hcut, hrec, ⟨hdone, hend⟩ | ⟨hdone, hlive, htail⟩⟩ := h
  · refine .inr ⟨s, ?_, ?_⟩
    · rw [OscResumeCapture.scan, if_pos hdone]
    · obtain ⟨hcut', hrec', hend'⟩ := captures_done (c := c) hcut hrec hend
      exact ⟨hcut', hrec', .inl ⟨hdone, hend'⟩⟩
  have hlast := (recorded_iff hlive).mp hrec
  have htail' : carry (s.tail ++ c) = carry (l ++ [c]).flatten := by
    rw [htail, carry_carry, flatten_append, flatten_singleton]
  rw [OscResumeCapture.scan, if_neg (by simp [hdone])]
  dsimp only
  have hscan : ScansTo (s.tail ++ c) none (extractLastTitleUuidPrefix (s.tail ++ c)) :=
    scanLoop_spec (byteLen (s.tail ++ c) + 1) [] (s.tail ++ c) none (Nat.lt_succ_self _)
  rw [htail] at hscan htail' ⊢
  generalize extractLastTitleUuidPrefix (carry l.flatten ++ c) = outcome at hscan
  rcases hscan with ⟨rfl, p, text, hseen, hcuts⟩ | ⟨v, rfl, hlatest, hsafe⟩
  · refine .inl ⟨rfl, ?_⟩
    intro hcut'
    refine hcut' l c (windowStart l + p) text (prefix_refl _) hlive ?_ hcuts
    refine caughtIn_iff.mpr ⟨Nat.le_add_right _ _, ?_⟩
    rw [Nat.add_sub_cancel_left]
    exact hseen
  have hcut' := cutFree_snoc hcut hsafe
  have hlast' := latest_snoc hlast hlatest
  have hlive' := unresolved_snoc hlive hlast'
  cases v with
  | none =>
    have hstill : Unresolved (l ++ [c]) := by
      refine hlive'.mpr ?_
      intro u hu
      rw [none_or] at hu
      rw [hu] at hlast
      exact hlive l u (prefix_refl l) hlast
    exact .inr ⟨_, rfl, hcut', (recorded_iff hstill).mpr hlast', .inr ⟨hdone, hstill, htail'⟩⟩
  | some u =>
    rw [some_or] at hlast' hlive'
    have hrun : ∃ text, Latest (UuidRun text) none (some u) := by
      cases hlatest with
      | last hu =>
        obtain ⟨p, hp, -⟩ := hu
        obtain ⟨text, u', -, e, hu'⟩ := (seenRun_iff (some u)).mp hp
        cases e
        exact ⟨text, hu'⟩
    obtain ⟨text, hu⟩ := hrun
    obtain ⟨hbytes, hle⟩ := uuidRun_byteLen hu
    dsimp only
    by_cases hfull : byteLen u ≥ fullUuidLen
    · have hlen : fullUuidLen = byteLen u := by omega
      have hend : ¬Unresolved (l ++ [c]) := by
        intro hstill
        have hlt := hlive'.mp hstill u rfl
        omega
      rw [if_pos hfull, hlen, sliceTo_all]
      refine .inr ⟨_, rfl, hcut', ?_, .inl ⟨?_, hend⟩⟩
      · rw [OscResumeCapture.emitResolved, if_neg (by simp [hdone])]
        exact ⟨l, prefix_append _ _, hlive, .inr ⟨c, prefix_refl _, hend⟩, hlast⟩
      · rw [OscResumeCapture.emitResolved, if_neg (by simp [hdone])]
    · have hstill : Unresolved (l ++ [c]) := by
        refine hlive'.mpr ?_
        intro u' hu'
        cases hu'
        omega
      rw [if_neg hfull]
      exact .inr ⟨_, rfl, hcut', (recorded_iff hstill).mpr hlast', .inr ⟨hdone, hstill, htail'⟩⟩

theorem scanAll_captures (cs : List (List Char)) :
    OscResumeCapture.scanAll cs = none ∧ ¬CutFree cs ∨
      ∃ s, OscResumeCapture.scanAll cs = some s ∧ Captures cs s := by
  induction cs using reverseRecOn with
  | nil => exact .inr ⟨{}, rfl, captures_nil⟩
  | append_singleton l c ih =>
    have hsnoc : OscResumeCapture.scanAll (l ++ [c]) =
        (OscResumeCapture.scanAll l).bind (·.scan c) := by
      show (l ++ [c]).foldlM OscResumeCapture.scan {} = _
      rw [foldlM_append]
      show (l.foldlM OscResumeCapture.scan {}).bind
        (fun s => [c].foldlM OscResumeCapture.scan s) = _
      congr 1
      funext s
      simp
    rw [hsnoc]
    rcases ih with ⟨hnone, hcut⟩ | ⟨s, hsome, hs⟩
    · rw [hnone]
      exact .inl ⟨rfl, fun hcut' => hcut (hcut'.mono (prefix_append _ _))⟩
    · rw [hsome]
      exact scan_captures hs

end

theorem carry_iff (cs : List (List Char)) : ChunkIndependent cs ↔ CarrySafe cs := by
  have hchunks := scanAll_captures cs
  have hwhole := scanAll_captures [cs.flatten]
  constructor
  · intro h
    obtain ⟨s, t, hs, ht, heq⟩ := h
    rcases hchunks with ⟨hnone, -⟩ | ⟨s', hs', hcut, hrec, -⟩
    · rw [hnone] at hs
      cases hs
    rcases hwhole with ⟨hnone, -⟩ | ⟨t', ht', hcut', hrec', -⟩
    · rw [hnone] at ht
      cases ht
    cases hs.symm.trans hs'
    cases ht.symm.trans ht'
    refine ⟨hcut, hcut', ?_⟩
    intro v hv
    rw [recorded_unique hv hrec, heq]
    exact hrec'
  · intro h
    obtain ⟨hcut, hcut', hsame⟩ := h
    rcases hchunks with ⟨-, hnot⟩ | ⟨s, hs, -, hrec, -⟩
    · exact absurd hcut hnot
    rcases hwhole with ⟨-, hnot⟩ | ⟨t, ht, -, hrec', -⟩
    · exact absurd hcut' hnot
    exact ⟨s, t, hs, ht, recorded_unique (hsame _ hrec) hrec'⟩

/-- a title of a hundred characters, whose end comes in a chunk of its own -/
def longTitle : List Char :=
  [escChar, ']', '0', ';'] ++ List.replicate 73 ' ' ++ "019eb24f-f78f-7c63-baba".toList

theorem longTitle_lost : (OscResumeCapture.scanAll [longTitle, [belChar]]).map (·.lastSeenPrefix) =
      some none ∧
    (OscResumeCapture.scanAll [longTitle ++ [belChar]]).map (·.lastSeenPrefix) =
      some (some "019eb24f-f78f-7c63-baba".toList) ∧
    ¬ChunkIndependent [longTitle, [belChar]] := by
  have hchunks : (OscResumeCapture.scanAll [longTitle, [belChar]]).map (·.lastSeenPrefix) =
      some none := by decide +kernel
  have hwhole : (OscResumeCapture.scanAll [longTitle ++ [belChar]]).map (·.lastSeenPrefix) =
      some (some "019eb24f-f78f-7c63-baba".toList) := by decide +kernel
  refine ⟨hchunks, hwhole, ?_⟩
  intro h
  obtain ⟨s, t, hs, ht, heq⟩ := h
  rw [hs] at hchunks
  have hflatten : [longTitle, [belChar]].flatten = longTitle ++ [belChar] := by simp
  rw [hflatten] at ht
  rw [ht] at hwhole
  have hnone : s.lastSeenPrefix = none := some.inj hchunks
  have hsome : t.lastSeenPrefix = some "019eb24f-f78f-7c63-baba".toList := some.inj hwhole
  rw [← heq, hnone] at hsome
  cases hsome

end CcPanes

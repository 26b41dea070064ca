import CcPanes.Terminal.TitleRuns

/-!
# The scan for titles

`extract_last_title_uuid_prefix` of `osc_resume_capture.rs`.  The scan goes on two bytes before the
end of a title it has read, because the index of the end counts from behind `0;`; and it stops at a
title without an end in its first 256 characters.

* `titleScan_iff`  it ends, and it is right just if no title that it reads ends in a
  character that it cuts, and no run behind an open title matters.
-/

namespace CcPanes
open List

def escChar : Char := '\x1b'
def belChar : Char := '\x07'

/-- `find("\u{1b}]")` -/
def findIntro : List Char → Option Nat
  | [] => none
  | c :: cs =>
    if c = escChar && cs.head? = some ']' then some 0 else (findIntro cs).map (c.utf8Size + ·)

def isTitleEnd (c : Char) : Bool := c = belChar || c = escChar

def findEnd (body : List Char) : Option Nat :=
  (((charIndices 0 body).take maxTitleLen).find? fun e => isTitleEnd e.2).map Prod.fst

/-- `strip_prefix` of `0;` or `2;` -/
def stripTitle : List Char → Option (List Char)
  | d :: ';' :: body => if d = '0' || d = '2' then some body else none
  | _ => none

inductive TitleOutcome where
  | running
  | panic
  | done (result : Option (List Char))
deriving DecidableEq

/-- the loop from the index `i` on -/
def scanLoop : (fuel : Nat) → (data : List Char) → (i : Nat) → (result : Option (List Char)) →
    TitleOutcome
  | 0, _, _, _ => .running
  | fuel + 1, data, i, result =>
    match sliceFrom data i with
    | none => .panic
    | some tail =>
      match findIntro tail with
      | none => .done result
      | some pos =>
        let start := i + pos
        match sliceFrom data (start + 2) with
        | none => .panic
        | some rest =>
          match stripTitle rest with
          | none => scanLoop fuel data (start + 2) result
          | some body =>
            match findEnd body with
            | none => .done result
            | some len =>
              match sliceTo body len with
              | none => .panic
              | some text =>
                let result := (extractUuidLike text).or result
                if start + 2 + len ≥ byteLen data then .done result
                else scanLoop fuel data (start + 2 + len) result

def extractLastTitleUuidPrefix (data : List Char) : TitleOutcome :=
  scanLoop (byteLen data + 1) data 0 none

/-! ## titles -/

/-- `body` follows the introducer of a title at the position `p` -/
def IntroAt (data : List Char) (p : Nat) (body : List Char) : Prop :=
  ∃ d, data.drop p = escChar :: ']' :: d :: ';' :: body ∧ (d = '0' ∨ d = '2')

def TitleAt (data : List Char) (p : Nat) (text : List Char) : Prop :=
  ∃ t post, IntroAt data p (text ++ t :: post) ∧ isTitleEnd t = true ∧
    text.all (!isTitleEnd ·) = true ∧ text.length < maxTitleLen

def OpenAt (data : List Char) (p : Nat) : Prop :=
  ∃ body, IntroAt data p body ∧ (body.take maxTitleLen).all (!isTitleEnd ·) = true

def TitleRun (data : List Char) (p : Nat) (v : Option (List Char)) : Prop :=
  ∃ text u, TitleAt data p text ∧ v = some u ∧ Latest (UuidRun text) none (some u)

def Seen (data : List Char) (p : Nat) (text : List Char) : Prop :=
  TitleAt data p text ∧ ∀ q, q < p → ¬OpenAt data q

def SeenRun (data : List Char) (p : Nat) (v : Option (List Char)) : Prop :=
  TitleRun data p v ∧ ∀ q, q < p → ¬OpenAt data q

def CutsChar (text : List Char) : Prop :=
  ∃ x c y, text = x ++ c :: y ∧ byteLen y < 2 ∧ 2 < byteLen (c :: y)

/-- the condition: no title that is read is cut, and the runs behind an open title do not matter -/
def TitlesSafe (data : List Char) : Prop :=
  (∀ p text, Seen data p text → ¬CutsChar text) ∧
    ∀ v, Latest (TitleRun data) none v → Latest (SeenRun data) none v

section
variable {data x rest : List Char} {p : Nat} {body text : List Char}

theorem IntroAt.unique {body' : List Char} (h : IntroAt data p body) (h' : IntroAt data p body') :
    body = body' := by
  obtain ⟨d, e, -⟩ := h
  obtain ⟨d', e', -⟩ := h'
  rw [e] at e'
  have hboth : d = d' ∧ body = body' := by
    simpa using (cons.inj (cons.inj e').2).2
  exact hboth.2

theorem IntroAt.esc (h : IntroAt data p body) : data[p]? = some escChar := by
  obtain ⟨d, e, -⟩ := h
  have hhead : (data.drop p)[0]? = some escChar := by
    rw [e]
    rfl
  rw [getElem?_drop] at hhead
  exact hhead

theorem IntroAt.lt (h : IntroAt data p body) : p < data.length :=
  (List.getElem?_eq_some_iff.mp h.esc).1

theorem introAt_append (hp : x.length ≤ p) :
    IntroAt (x ++ rest) p body ↔ IntroAt rest (p - x.length) body := by
  rw [IntroAt, IntroAt, drop_append, drop_eq_nil_of_le hp, nil_append]

theorem split_of_ends {text text' post post' : List Char} {t t' : Char}
    (htext : text.all (!isTitleEnd ·) = true) (htext' : text'.all (!isTitleEnd ·) = true)
    (ht : isTitleEnd t = true) (ht' : isTitleEnd t' = true)
    (h : text ++ t :: post = text' ++ t' :: post') : text = text' := by
  have htake : ∀ (l post : List Char) (t : Char), l.all (!isTitleEnd ·) = true →
      isTitleEnd t = true → (l ++ t :: post).takeWhile (!isTitleEnd ·) = l := by
    intro l post t hl ht
    rw [takeWhile_append_of_pos (all_eq_true.mp hl), takeWhile_cons_of_neg]
    · simp
    · simp [ht]
  rw [← htake text post t htext ht, h, htake text' post' t' htext' ht']

theorem TitleAt.unique {text' : List Char} (h : TitleAt data p text) (h' : TitleAt data p text') :
    text = text' := by
  obtain ⟨t, post, hintro, ht, htext, -⟩ := h
  obtain ⟨t', post', hintro', ht', htext', -⟩ := h'
  exact split_of_ends htext htext' ht ht' (hintro.unique hintro')

theorem OpenAt.not_titleAt (h : OpenAt data p) : ¬TitleAt data p text := by
  intro h'
  obtain ⟨body, hintro, hopen⟩ := h
  obtain ⟨t, post, hintro', ht, -, hlen⟩ := h'
  obtain rfl := hintro.unique hintro'
  have hmem : t ∈ (text ++ t :: post).take maxTitleLen := by
    rw [take_append, take_of_length_le (Nat.le_of_lt hlen)]
    obtain ⟨k, hk⟩ : ∃ k, maxTitleLen - text.length = k + 1 :=
      ⟨maxTitleLen - text.length - 1, by omega⟩
    rw [hk, take_succ_cons]
    simp
  have hnot := all_eq_true.mp hopen t hmem
  rw [ht] at hnot
  cases hnot

theorem titleRun_oneValue (data : List Char) : OneValue (TitleRun data) := by
  intro p v w h h'
  obtain ⟨text, u, htitle, rfl, hu⟩ := h
  obtain ⟨text', u', htitle', rfl, hu'⟩ := h'
  obtain rfl := htitle.unique htitle'
  exact hu.unique (uuidRun_oneValue text) hu'

theorem titleAt_append (hp : x.length ≤ p) :
    TitleAt (x ++ rest) p text ↔ TitleAt rest (p - x.length) text := by
  unfold TitleAt
  simp only [introAt_append hp]

theorem openAt_append (hp : x.length ≤ p) :
    OpenAt (x ++ rest) p ↔ OpenAt rest (p - x.length) := by
  unfold OpenAt
  simp only [introAt_append hp]

theorem seen_skip (hx : ∀ p body, IntroAt (x ++ rest) p body → x.length ≤ p) :
    Seen (x ++ rest) p text ↔ x.length ≤ p ∧ Seen rest (p - x.length) text := by
  constructor
  · intro h
    obtain ⟨htitle, hopen⟩ := h
    have hp : x.length ≤ p := by
      obtain ⟨t, post, hintro, -⟩ := htitle
      exact hx p _ hintro
    refine ⟨hp, (titleAt_append hp).mp htitle, ?_⟩
    intro q hq hopen'
    refine hopen (x.length + q) (by omega) ((openAt_append (Nat.le_add_right _ _)).mpr ?_)
    rw [Nat.add_sub_cancel_left]
    exact hopen'
  intro h
  obtain ⟨hp, htitle, hopen⟩ := h
  refine ⟨(titleAt_append hp).mpr htitle, ?_⟩
  intro q hq hopen'
  have hq' : x.length ≤ q := by
    obtain ⟨body, hintro, -⟩ := hopen'
    exact hx q _ hintro
  exact hopen (q - x.length) (by omega) ((openAt_append hq').mp hopen')

theorem seen_title {n : Nat} {first : List Char} (hn : n < x.length)
    (hx : ∀ p body, IntroAt (x ++ rest) p body → p = n ∨ x.length ≤ p)
    (hfirst : TitleAt (x ++ rest) n first) :
    Seen (x ++ rest) p text ↔ p = n ∧ text = first ∨
      x.length ≤ p ∧ Seen rest (p - x.length) text := by
  have hnone : ∀ q, q < x.length → ¬OpenAt (x ++ rest) q := by
    intro q hq hopen
    have hopen' := hopen
    obtain ⟨body, hintro, -⟩ := hopen'
    rcases hx q _ hintro with rfl | hle
    · exact hopen.not_titleAt hfirst
    · omega
  constructor
  · intro h
    obtain ⟨htitle, hopen⟩ := h
    have htitle' := htitle
    obtain ⟨t, post, hintro, -⟩ := htitle'
    rcases hx p _ hintro with rfl | hp
    · exact .inl ⟨rfl, htitle.unique hfirst⟩
    refine .inr ⟨hp, (titleAt_append hp).mp htitle, ?_⟩
    intro q hq hopen'
    refine hopen (x.length + q) (by omega) ((openAt_append (Nat.le_add_right _ _)).mpr ?_)
    rw [Nat.add_sub_cancel_left]
    exact hopen'
  · intro h
    rcases h with ⟨rfl, rfl⟩ | ⟨hp, htitle, hopen⟩
    · exact ⟨hfirst, fun q hq => hnone q (by omega)⟩
    refine ⟨(titleAt_append hp).mpr htitle, ?_⟩
    intro q hq hopen'
    by_cases hq' : x.length ≤ q
    · exact hopen (q - x.length) (by omega) ((openAt_append hq').mp hopen')
    · exact hnone q (by omega) hopen'

theorem seenRun_iff (v : Option (List Char)) : SeenRun data p v ↔
    ∃ text u, Seen data p text ∧ v = some u ∧ Latest (UuidRun text) none (some u) := by
  constructor
  · intro h
    obtain ⟨⟨text, u, htitle, hv, hu⟩, hopen⟩ := h
    exact ⟨text, u, ⟨htitle, hopen⟩, hv, hu⟩
  · intro h
    obtain ⟨text, u, ⟨htitle, hopen⟩, hv, hu⟩ := h
    exact ⟨⟨text, u, htitle, hv, hu⟩, hopen⟩

end

theorem findIntro_none {cs : List Char} (h : findIntro cs = none) (p : Nat) (body : List Char) :
    ¬IntroAt cs p body := by
  induction cs generalizing p with
  | nil =>
    intro hintro
    exact absurd hintro.lt (Nat.not_lt_zero p)
  | cons c cs ih =>
    intro hintro
    rw [findIntro] at h
    by_cases hhead : (c = escChar && cs.head? = some ']') = true
    · rw [if_pos hhead] at h
      cases h
    rw [if_neg hhead] at h
    cases p with
    | zero =>
      obtain ⟨d, e, -⟩ := hintro
      obtain ⟨rfl, rfl⟩ := cons.inj e
      exact hhead rfl
    | succ p =>
      exact ih (Option.map_eq_none_iff.mp h) p hintro

theorem findIntro_some {cs : List Char} {pos : Nat} (h : findIntro cs = some pos) :
    ∃ a b, cs = a ++ escChar :: ']' :: b ∧ byteLen a = pos ∧
      ∀ p body, IntroAt cs p body → a.length ≤ p := by
  induction cs generalizing pos with
  | nil => cases h
  | cons c cs ih =>
    rw [findIntro] at h
    by_cases hhead : (c = escChar && cs.head? = some ']') = true
    · rw [if_pos hhead] at h
      cases h
      rw [Bool.and_eq_true, decide_eq_true_eq, decide_eq_true_eq] at hhead
      obtain ⟨rfl, hcs⟩ := hhead
      obtain ⟨b, rfl⟩ : ∃ b, cs = ']' :: b := by
        cases cs with
        | nil => cases hcs
        | cons c' b =>
          cases hcs
          exact ⟨b, rfl⟩
      exact ⟨[], b, rfl, rfl, fun p body _ => Nat.zero_le p⟩
    rw [if_neg hhead] at h
    obtain ⟨pos', hpos', rfl⟩ := Option.map_eq_some_iff.mp h
    obtain ⟨a, b, rfl, rfl, hmin⟩ := ih hpos'
    refine ⟨c :: a, b, rfl, byteLen_cons c a, ?_⟩
    intro p body hintro
    cases p with
    | zero =>
      obtain ⟨d, e, -⟩ := hintro
      obtain ⟨rfl, e'⟩ := cons.inj e
      rw [e'] at hhead
      exact absurd rfl hhead
    | succ p => exact Nat.succ_le_succ (hmin p body hintro)

theorem findEnd_cases (body : List Char) :
    findEnd body = none ∧ (body.take maxTitleLen).all (!isTitleEnd ·) = true ∨
      ∃ text t post, body = text ++ t :: post ∧ findEnd body = some (byteLen text) ∧
        isTitleEnd t = true ∧ text.all (!isTitleEnd ·) = true ∧ text.length < maxTitleLen := by
  have hfind : ∀ n i (cs : List Char),
      ((charIndices i cs).take n).find? (fun e => isTitleEnd e.2) = none ∧
          (cs.take n).all (!isTitleEnd ·) = true ∨
        ∃ text t post, cs = text ++ t :: post ∧
          ((charIndices i cs).take n).find? (fun e => isTitleEnd e.2) = some (i + byteLen text, t) ∧
          isTitleEnd t = true ∧ text.all (!isTitleEnd ·) = true ∧ text.length < n := by
    intro n
    induction n with
    | zero =>
      intro i cs
      exact .inl ⟨by simp, by simp⟩
    | succ n ih =>
      intro i cs
      cases cs with
      | nil => exact .inl ⟨rfl, rfl⟩
      | cons c cs =>
        rw [charIndices, take_succ_cons, take_succ_cons]
        cases hc : isTitleEnd c with
        | true =>
          refine .inr ⟨[], c, cs, rfl, ?_, hc, rfl, Nat.succ_pos n⟩
          rw [find?_cons, hc]
          rfl
        | false =>
          rw [find?_cons, hc]
          dsimp only
          rcases ih (i + c.utf8Size) cs with ⟨hnone, hall⟩ | ⟨text, t, post, rfl, hsome, ht, htext,
            hlen⟩
          · exact .inl ⟨hnone, by simp [hc, hall]⟩
          · refine .inr ⟨c :: text, t, post, rfl, ?_, ht, by simp [hc, htext],
              Nat.succ_lt_succ hlen⟩
            rw [hsome, byteLen_cons, Nat.add_assoc]
  rw [findEnd]
  rcases hfind maxTitleLen 0 body with ⟨hnone, hall⟩ | ⟨text, t, post, e, hsome, h⟩
  · rw [hnone]
    exact .inl ⟨rfl, hall⟩
  · rw [hsome, Nat.zero_add]
    exact .inr ⟨text, t, post, e, rfl, h⟩

theorem stripTitle_cases (rest : List Char) :
    stripTitle rest = none ∧ (∀ d body, rest = d :: ';' :: body → ¬(d = '0' ∨ d = '2')) ∨
      ∃ d body, rest = d :: ';' :: body ∧ (d = '0' ∨ d = '2') ∧ stripTitle rest = some body := by
  cases hstrip : stripTitle rest with
  | none =>
    refine .inl ⟨rfl, ?_⟩
    intro d body e hd
    subst e
    rw [stripTitle, if_pos (by simpa using hd)] at hstrip
    cases hstrip
  | some =>
    unfold stripTitle at hstrip
    split at hstrip
    · rename_i d body'
      by_cases hd : (d = '0' || d = '2') = true
      · rw [if_pos hd] at hstrip
        obtain rfl := Option.some.inj hstrip
        exact .inr ⟨d, body', rfl, by simpa using hd, rfl⟩
      · rw [if_neg hd] at hstrip
        cases hstrip
    · cases hstrip

/-! ## the loop -/

theorem split_at_two {l : List Char} (h : 2 ≤ byteLen l) :
    (∃ x y, l = x ++ y ∧ byteLen y = 2) ∨ ∃ x c y, l = x ++ c :: y ∧ byteLen y < 2 ∧
      2 < byteLen (c :: y) := by
  induction l with
  | nil => cases h
  | cons c l ih =>
    by_cases hl : 2 ≤ byteLen l
    · rcases ih hl with ⟨x, y, rfl, hy⟩ | ⟨x, c', y, rfl, hy⟩
      · exact .inl ⟨c :: x, y, rfl, hy⟩
      · exact .inr ⟨c :: x, c', y, rfl, hy⟩
    · by_cases hc : byteLen (c :: l) = 2
      · exact .inl ⟨[], c :: l, rfl, hc⟩
      · exact .inr ⟨[], c, l, rfl, by omega, by omega⟩

theorem sliceFrom_inside {a b : List Char} {c : Char} {i : Nat} (h : byteLen a < i)
    (h' : i < byteLen a + c.utf8Size) : sliceFrom (a ++ c :: b) i = none := by
  cases hslice : sliceFrom (a ++ c :: b) i with
  | none => rfl
  | some =>
    obtain ⟨a', e, rfl⟩ := sliceFrom_eq_some hslice
    rcases append_eq_append_iff.mp e with ⟨m, rfl, hm⟩ | ⟨m, rfl, hm⟩
    · rw [byteLen_append] at h h'
      cases m with
      | nil =>
        rw [byteLen_nil] at h
        omega
      | cons =>
        obtain ⟨rfl, -⟩ := cons.inj hm
        rw [byteLen_cons] at h'
        omega
    · rw [byteLen_append] at h
      omega

theorem char_sizes : escChar.utf8Size = 1 ∧ (']' : Char).utf8Size = 1 ∧ (';' : Char).utf8Size = 1 ∧
    ('0' : Char).utf8Size = 1 ∧ ('2' : Char).utf8Size = 1 := by decide

theorem boundary_of_not_cut {d : Char} (hd : d = '0' ∨ d = '2') {text : List Char}
    (h : ¬CutsChar text) : ∃ x y, d :: ';' :: text = x ++ y ∧ byteLen y = 2 := by
  obtain ⟨-, -, hsemi, hzero, htwo⟩ := char_sizes
  have hsize : d.utf8Size = 1 := by
    rcases hd with rfl | rfl
    · exact hzero
    · exact htwo
  have hlen : 2 ≤ byteLen (d :: ';' :: text) := by
    rw [byteLen_cons, byteLen_cons, hsize, hsemi]
    omega
  rcases split_at_two hlen with hsplit | ⟨x, c, y, e, hy, hcy⟩
  · exact hsplit
  rw [byteLen_cons] at hcy
  match x with
  | [] =>
    obtain ⟨rfl, -⟩ := cons.inj e
    omega
  | [_] =>
    obtain ⟨-, e'⟩ := cons.inj e
    obtain ⟨rfl, -⟩ := cons.inj e'
    omega
  | _ :: _ :: x =>
    obtain ⟨-, e'⟩ := cons.inj e
    obtain ⟨-, e''⟩ := cons.inj e'
    refine absurd ⟨x, c, y, e'', hy, ?_⟩ h
    rw [byteLen_cons]
    exact hcy

section
variable {pre a b body text post : List Char} {d t : Char} {p : Nat}

theorem intro_other (hmin : ∀ p body, IntroAt (a ++ escChar :: ']' :: b) p body → a.length ≤ p)
    (hstrip : ∀ d body, b = d :: ';' :: body → ¬(d = '0' ∨ d = '2'))
    (hintro : IntroAt ((a ++ [escChar, ']']) ++ b) p body) : (a ++ [escChar, ']']).length ≤ p := by
  rw [append_assoc] at hintro
  have hle := hmin p body hintro
  rw [length_append]
  show a.length + 2 ≤ p
  have hzero : p ≠ a.length := by
    intro hp
    subst hp
    obtain ⟨d, e, hd⟩ := hintro
    rw [drop_left] at e
    exact hstrip d body (cons.inj (cons.inj e).2).2 hd
  have hone : p ≠ a.length + 1 := by
    intro hp
    subst hp
    have hesc := hintro.esc
    rw [getElem?_append_right (by omega), Nat.add_sub_cancel_left] at hesc
    cases hesc
  omega

theorem intro_title
    (hmin : ∀ p body, IntroAt (a ++ escChar :: ']' :: d :: ';' :: (text ++ t :: post)) p body →
      a.length ≤ p)
    (hd : d = '0' ∨ d = '2') (htext : text.all (!isTitleEnd ·) = true) {x y : List Char}
    (hxy : d :: ';' :: text = x ++ y)
    (hintro : IntroAt ((a ++ escChar :: ']' :: x) ++ (y ++ t :: post)) p body) :
    p = a.length ∨ (a ++ escChar :: ']' :: x).length ≤ p := by
  have e : (a ++ escChar :: ']' :: x) ++ (y ++ t :: post) =
      a ++ escChar :: ']' :: d :: ';' :: (text ++ t :: post) := by
    rw [append_assoc]
    congr 1
    show escChar :: ']' :: (x ++ (y ++ t :: post)) = _
    rw [← append_assoc, ← hxy]
    rfl
  rw [e] at hintro
  have hle := hmin p body hintro
  have hesc := hintro.esc
  rw [getElem?_append_right hle] at hesc
  by_cases hp : p = a.length
  · exact .inl hp
  refine .inr ?_
  rw [length_append]
  show a.length + (x.length + 2) ≤ p
  by_contra hlt
  obtain ⟨k, hk⟩ : ∃ k, p - a.length = k + 1 := ⟨p - a.length - 1, by omega⟩
  rw [hk] at hesc
  cases k with
  | zero => cases hesc
  | succ k =>
    have hk' : k < x.length := by omega
    have hget : (x ++ (y ++ t :: post))[k]? = some escChar := by
      rw [← append_assoc, ← hxy]
      exact hesc
    rw [getElem?_append_left hk'] at hget
    have hmem : escChar ∈ d :: ';' :: text := by
      rw [hxy]
      exact mem_append_left _ (mem_of_getElem? hget)
    rcases mem_cons.mp hmem with hesc | hmem
    · rcases hd with rfl | rfl
      · cases hesc
      · cases hesc
    rcases mem_cons.mp hmem with hesc | hmem
    · cases hesc
    · have hnot := all_eq_true.mp htext _ hmem
      cases hnot

end

/-- what the scan of the rest of a string does: it panics at a title that is cut, or it keeps the
last run -/
def ScansTo (rest : List Char) (result : Option (List Char)) (outcome : TitleOutcome) : Prop :=
  outcome = .panic ∧ (∃ p text, Seen rest p text ∧ CutsChar text) ∨
    ∃ v, outcome = .done v ∧ Latest (SeenRun rest) result v ∧
      ∀ p text, Seen rest p text → ¬CutsChar text

theorem ScansTo.skip {x rest : List Char} {result : Option (List Char)} {outcome : TitleOutcome}
    (hx : ∀ p body, IntroAt (x ++ rest) p body → x.length ≤ p) (h : ScansTo rest result outcome) :
    ScansTo (x ++ rest) result outcome := by
  rcases h with ⟨houtcome, p, text, hseen, hcut⟩ | ⟨v, houtcome, hlatest, hsafe⟩
  · refine .inl ⟨houtcome, x.length + p, text, (seen_skip hx).mpr ⟨Nat.le_add_right _ _, ?_⟩, hcut⟩
    rw [Nat.add_sub_cancel_left]
    exact hseen
  refine .inr ⟨v, houtcome, (hlatest.shift x.length).congr ?_, ?_⟩
  · intro p v
    rw [seenRun_iff, seenRun_iff]
    constructor
    · intro h
      obtain ⟨hp, text, u, hseen, h⟩ := h
      exact ⟨text, u, (seen_skip hx).mpr ⟨hp, hseen⟩, h⟩
    intro h
    obtain ⟨text, u, hseen, h⟩ := h
    obtain ⟨hp, hseen⟩ := (seen_skip hx).mp hseen
    exact ⟨hp, text, u, hseen, h⟩
  · intro p text hseen
    exact hsafe _ text ((seen_skip hx).mp hseen).2

theorem ScansTo.title {x rest : List Char} {result : Option (List Char)} {outcome : TitleOutcome}
    {n : Nat} {first : List Char} (hn : n < x.length)
    (hx : ∀ p body, IntroAt (x ++ rest) p body → p = n ∨ x.length ≤ p)
    (hfirst : TitleAt (x ++ rest) n first) (hcut : ¬CutsChar first)
    (h : ScansTo rest ((extractUuidLike first).or result) outcome) :
    ScansTo (x ++ rest) result outcome := by
  have hiff : ∀ p text, Seen (x ++ rest) p text ↔ p = n ∧ text = first ∨
      x.length ≤ p ∧ Seen rest (p - x.length) text := by
    intro p text
    exact seen_title hn hx hfirst
  rcases h with ⟨houtcome, p, text, hseen, hcut⟩ | ⟨v, houtcome, hlatest, hsafe⟩
  · refine .inl ⟨houtcome, x.length + p, text, (hiff _ _).mpr (.inr ⟨Nat.le_add_right _ _, ?_⟩),
      hcut⟩
    rw [Nat.add_sub_cancel_left]
    exact hseen
  refine .inr ⟨v, houtcome, ?_, ?_⟩
  · have hrun := extractUuidLike_latest first
    have hhere : Latest
        (fun p v => p = n ∧ ∃ u, v = some u ∧ Latest (UuidRun first) none (some u))
        result ((extractUuidLike first).or result) := by
      cases hfound : extractUuidLike first with
      | none =>
        refine .none ?_
        intro p v h
        obtain ⟨-, u, -, hu⟩ := h
        rw [hfound] at hrun
        cases hrun.unique (uuidRun_oneValue first) hu
      | some u =>
        rw [hfound] at hrun
        exact .last ⟨n, ⟨rfl, u, rfl, hrun⟩, fun q w hq => Nat.le_of_eq hq.1⟩
    refine (hhere.union (hlatest.shift x.length) ?_).congr ?_
    · intro p v q w hp hq
      exact ⟨q, w, hq, by omega⟩
    intro p v
    rw [seenRun_iff, seenRun_iff]
    constructor
    · intro h
      rcases h with ⟨rfl, u, h⟩ | ⟨hp, text, u, hseen, h⟩
      · exact ⟨first, u, (hiff _ _).mpr (.inl ⟨rfl, rfl⟩), h⟩
      · exact ⟨text, u, (hiff _ _).mpr (.inr ⟨hp, hseen⟩), h⟩
    intro h
    obtain ⟨text, u, hseen, h⟩ := h
    rcases (hiff _ _).mp hseen with ⟨rfl, rfl⟩ | ⟨hp, hseen⟩
    · exact .inl ⟨rfl, u, h⟩
    · exact .inr ⟨hp, text, u, hseen, h⟩
  · intro p text hseen
    rcases (hiff _ _).mp hseen with ⟨-, rfl⟩ | ⟨-, hseen⟩
    · exact hcut
    · exact hsafe _ text hseen

theorem scanLoop_spec (fuel : Nat) : ∀ pre rest result, byteLen rest < fuel →
    ScansTo rest result (scanLoop fuel (pre ++ rest) (byteLen pre) result) := by
  induction fuel with
  | zero =>
    intro pre rest result hfuel
    cases hfuel
  | succ fuel ih =>
    intro pre rest result hfuel
    rw [scanLoop, sliceFrom_append]
    dsimp only
    cases hfind : findIntro rest with
    | none =>
      have hnone : ∀ p text, ¬Seen rest p text := by
        intro p text hseen
        obtain ⟨⟨t, post, hintro, -⟩, -⟩ := hseen
        exact findIntro_none hfind p _ hintro
      refine .inr ⟨result, rfl, .none ?_, fun p text hseen => absurd hseen (hnone p text)⟩
      intro p v hrun
      obtain ⟨text, u, hseen, -⟩ := (seenRun_iff v).mp hrun
      exact hnone p text hseen
    | some =>
      obtain ⟨a, b, rfl, rfl, hmin⟩ := findIntro_some hfind
      have hintro : byteLen [escChar, ']'] = 2 := by decide
      have hslice : sliceFrom (pre ++ (a ++ escChar :: ']' :: b)) (byteLen pre + byteLen a + 2) =
          some b := by
        have hslice := sliceFrom_append (pre ++ a ++ [escChar, ']']) b
        rw [byteLen_append, byteLen_append, hintro] at hslice
        simpa using hslice
      have hlen : byteLen (a ++ escChar :: ']' :: b) = byteLen a + (2 + byteLen b) := by
        show byteLen (a ++ ([escChar, ']'] ++ b)) = _
        rw [byteLen_append, byteLen_append, hintro]
      dsimp only
      rw [hslice]
      dsimp only
      rcases stripTitle_cases b with ⟨hstrip, hother⟩ | ⟨d, body, rfl, hd, hstrip⟩
      · rw [hstrip]
        have hnext := ih (pre ++ (a ++ [escChar, ']'])) b result (by omega)
        rw [byteLen_append, byteLen_append, hintro, ← Nat.add_assoc] at hnext
        have hskip := hnext.skip (x := a ++ [escChar, ']']) fun p body => intro_other hmin hother
        simpa using hskip
      rw [hstrip]
      dsimp only
      have hhead : byteLen [d, ';'] = 2 := by rcases hd with rfl | rfl <;> decide
      have hbody : byteLen (d :: ';' :: body) = 2 + byteLen body := by
        show byteLen ([d, ';'] ++ body) = _
        rw [byteLen_append, hhead]
      have hhere : IntroAt (a ++ escChar :: ']' :: d :: ';' :: body) a.length body := by
        refine ⟨d, ?_, hd⟩
        rw [drop_left]
      rcases findEnd_cases body with ⟨hend, hopen⟩ | ⟨text, t, post, rfl, hend, ht, htext, hshort⟩
      · -- the title is open, and the scan stops
        rw [hend]
        have hopen' : OpenAt (a ++ escChar :: ']' :: d :: ';' :: body) a.length :=
          ⟨body, hhere, hopen⟩
        have hnone : ∀ p text, ¬Seen (a ++ escChar :: ']' :: d :: ';' :: body) p text := by
          intro p text hseen
          obtain ⟨htitle, hbefore⟩ := hseen
          have htitle' := htitle
          obtain ⟨t, post, hintro, -⟩ := htitle'
          have hle := hmin p _ hintro
          rcases Nat.eq_or_lt_of_le hle with rfl | hlt
          · exact hopen'.not_titleAt htitle
          · exact hbefore a.length hlt hopen'
        refine .inr ⟨result, rfl, .none ?_, fun p text hseen => absurd hseen (hnone p text)⟩
        intro p v hrun
        obtain ⟨text, u, hseen, -⟩ := (seenRun_iff v).mp hrun
        exact hnone p text hseen
      rw [hend]
      dsimp only
      rw [sliceTo_append]
      dsimp only
      have htitle : TitleAt (a ++ escChar :: ']' :: d :: ';' :: (text ++ t :: post)) a.length
          text :=
        ⟨t, post, hhere, ht, htext, hshort⟩
      have hbodyLen : byteLen (text ++ t :: post) = byteLen text + (t.utf8Size + byteLen post) := by
        rw [byteLen_append, byteLen_cons]
      have hmore : ¬byteLen pre + byteLen a + 2 + byteLen text ≥
          byteLen (pre ++ (a ++ escChar :: ']' :: d :: ';' :: (text ++ t :: post))) := by
        rw [byteLen_append, hlen, hbody, hbodyLen]
        omega
      rw [if_neg hmore]
      by_cases hcut : CutsChar text
      · -- the next slice begins inside a character
        obtain ⟨x, c, y, rfl, hy, hcy⟩ := hcut
        rw [byteLen_cons] at hcy
        obtain ⟨fuel, rfl⟩ : ∃ f, fuel = f + 1 := ⟨fuel - 1, by omega⟩
        have hinside : sliceFrom
            (pre ++ (a ++ escChar :: ']' :: d :: ';' :: (x ++ c :: y ++ t :: post)))
            (byteLen pre + byteLen a + 2 + byteLen (x ++ c :: y)) = none := by
          have hpre : byteLen (pre ++ (a ++ ([escChar, ']'] ++ ([d, ';'] ++ x)))) =
              byteLen pre + (byteLen a + (2 + (2 + byteLen x))) := by
            rw [byteLen_append, byteLen_append, byteLen_append, byteLen_append, hintro, hhead]
          have hnone := sliceFrom_inside (a := pre ++ (a ++ ([escChar, ']'] ++ ([d, ';'] ++ x))))
            (b := y ++ t :: post) (c := c)
            (i := byteLen pre + byteLen a + 2 + byteLen (x ++ c :: y))
            (by rw [hpre, byteLen_append, byteLen_cons]; omega)
            (by rw [hpre, byteLen_append, byteLen_cons]; omega)
          simpa using hnone
        rw [scanLoop, hinside]
        exact .inl ⟨rfl, a.length, _, ⟨htitle, fun q hq hopen => by
          obtain ⟨body, hintro, -⟩ := hopen
          have hle := hmin q body hintro
          omega⟩, x, c, y, rfl, hy, by rw [byteLen_cons]; exact hcy⟩
      obtain ⟨x, y, hxy, hy⟩ := boundary_of_not_cut hd hcut
      have hxlen : byteLen x = byteLen text := by
        have hboth := congrArg byteLen hxy
        rw [byteLen_append, hy] at hboth
        have hleft : byteLen (d :: ';' :: text) = 2 + byteLen text := by
          show byteLen ([d, ';'] ++ text) = _
          rw [byteLen_append, hhead]
        omega
      have e : (a ++ escChar :: ']' :: x) ++ (y ++ t :: post) =
          a ++ escChar :: ']' :: d :: ';' :: (text ++ t :: post) := by
        rw [append_assoc]
        congr 1
        show escChar :: ']' :: (x ++ (y ++ t :: post)) = _
        rw [← append_assoc, ← hxy]
        rfl
      have hrest : byteLen (y ++ t :: post) < fuel := by
        rw [hlen, hbody, hbodyLen] at hfuel
        rw [byteLen_append, byteLen_cons, hy]
        omega
      have hnext := ih (pre ++ (a ++ escChar :: ']' :: x)) (y ++ t :: post)
        ((extractUuidLike text).or result) hrest
      have hindex : byteLen (pre ++ (a ++ escChar :: ']' :: x)) =
          byteLen pre + byteLen a + 2 + byteLen text := by
        show byteLen (pre ++ (a ++ ([escChar, ']'] ++ x))) = _
        rw [byteLen_append, byteLen_append, byteLen_append, hintro, hxlen]
        omega
      rw [hindex, append_assoc, e] at hnext
      rw [← e] at htitle
      have hall := hnext.title (x := a ++ escChar :: ']' :: x) (n := a.length)
        (by simp) (fun p body => intro_title hmin hd htext hxy) htitle hcut
      rw [e] at hall
      exact hall

/-- the scan ends without a panic, with the last run of the titles of the string -/
def FindsLastRun (data : List Char) : Prop :=
  ∃ v, extractLastTitleUuidPrefix data = .done v ∧ Latest (TitleRun data) none v

theorem titleScan_iff (data : List Char) :
    extractLastTitleUuidPrefix data ≠ .running ∧ (FindsLastRun data ↔ TitlesSafe data) := by
  have hscan : ScansTo data none (extractLastTitleUuidPrefix data) :=
    scanLoop_spec (byteLen data + 1) [] data none (Nat.lt_succ_self _)
  have hone : OneValue (SeenRun data) := by
    intro p v w h h'
    exact titleRun_oneValue data p v w h.1 h'.1
  unfold FindsLastRun
  generalize extractLastTitleUuidPrefix data = outcome at hscan
  rcases hscan with ⟨rfl, p, text, hseen, hcut⟩ | ⟨v, rfl, hlatest, hsafe⟩
  · refine ⟨TitleOutcome.noConfusion, ?_⟩
    constructor
    · intro h
      obtain ⟨v, hv, -⟩ := h
      cases hv
    · intro h
      exact absurd hcut (h.1 p text hseen)
  refine ⟨TitleOutcome.noConfusion, ?_⟩
  constructor
  · intro h
    obtain ⟨w, hw, hrun⟩ := h
    obtain rfl := TitleOutcome.done.inj hw
    refine ⟨hsafe, ?_⟩
    intro w hw
    obtain rfl := hrun.unique (titleRun_oneValue data) hw
    exact hlatest
  intro h
  have hbound : ∀ q w, TitleRun data q w → q ≤ data.length := by
    intro q w hq
    obtain ⟨text, u, ⟨t, post, hintro, -⟩, -⟩ := hq
    exact Nat.le_of_lt hintro.lt
  obtain ⟨w, hw⟩ := exists_latest none hbound
  obtain rfl := hlatest.unique hone (h.2 w hw)
  exact ⟨v, rfl, hw⟩

/-- a title that ends in an ellipsis: the scan goes on inside it -/
theorem title_panics : extractLastTitleUuidPrefix [escChar, ']', '0', ';', '…', belChar] = .panic ∧
    ¬FindsLastRun [escChar, ']', '0', ';', '…', belChar] := by
  have hpanic : extractLastTitleUuidPrefix [escChar, ']', '0', ';', '…', belChar] = .panic := by
    decide
  refine ⟨hpanic, ?_⟩
  intro h
  obtain ⟨v, hv, -⟩ := h
  rw [hpanic] at hv
  cases hv

end CcPanes

import CcPanes.Foundation.GlobalMatch
import CcPanes.Foundation.Transducer
import Mathlib.Tactic.IntervalCases

/-!
# Artefacts of ConPTY

On Windows the output of a terminal carries two byte patterns that ConPTY draws its cursor with.  They
are removed from what is read, and the end of a read that may be the start of one is held back.
-/

namespace CcPanes.Conpty
open List

/-! ## the functions -/

/-- `ESC [ 7 m` and a space, behind the backspace and the character of a cursor redraw -/
def patternTail : List UInt8 := [0x1b, 0x5b, 0x37, 0x6d, 0x20]

/-- `ESC [39m ESC [49m ESC [59m ESC [0m ESC [?25l` -/
def conptyStyleOnly : List UInt8 :=
  [0x1b, 0x5b, 0x33, 0x39, 0x6d, 0x1b, 0x5b, 0x34, 0x39, 0x6d, 0x1b, 0x5b, 0x35, 0x39, 0x6d,
    0x1b, 0x5b, 0x30, 0x6d, 0x1b, 0x5b, 0x3f, 0x32, 0x35, 0x6c]

def isCursorRedraw : List UInt8 → Bool
  | c :: _ :: data => c == 0x08 && patternTail.isPrefixOf data
  | _ => false

/-- the loop of `strip_conpty_artifacts`, `skip` bytes of the last artefact still to pass -/
def stripFrom : (skip : Nat) → List UInt8 → List UInt8
  | _, [] => []
  | skip + 1, _ :: data => stripFrom skip data
  | 0, c :: data =>
    if isCursorRedraw (c :: data) then stripFrom 6 data
    else if conptyStyleOnly.isPrefixOf (c :: data) then
      stripFrom (conptyStyleOnly.length - 1) data
    else c :: stripFrom 0 data

def stripConptyArtifacts (data : List UInt8) : List UInt8 := stripFrom 0 data

def isPrefixOfAnyPattern (data : List UInt8) : Bool :=
  (data.length < 7 && data.head? == some 0x08 && (data.length == 1 || data.length == 2 ||
        data.drop 2 == patternTail.take (data.length - 2))) ||
    (data.length < conptyStyleOnly.length && data.head? == some 0x1b &&
      data == conptyStyleOnly.take data.length)

/-- the loop of `trailing_partial_len` over the lengths from `n` down -/
def trailingPartialFrom (input : List UInt8) : Nat → Nat
  | 0 => 0
  | n + 1 =>
    let suffix := input.drop (input.length - (n + 1))
    if suffix.head? != some 0x08 && suffix.head? != some 0x1b then trailingPartialFrom input n
    else if isPrefixOfAnyPattern suffix then n + 1
    else trailingPartialFrom input n

def trailingPartialLen (input : List UInt8) : Nat :=
  trailingPartialFrom input (min 24 input.length)

/-- one read: the carry afterwards, and what is returned -/
def sanitizeWindowsOutput (disableSanitize : Bool) (carry chunk : List UInt8) :
    List UInt8 × List UInt8 :=
  if disableSanitize then (carry, chunk)
  else
    let combined := carry ++ chunk
    let splitAt := combined.length - trailingPartialLen combined
    (combined.drop splitAt, stripConptyArtifacts (combined.take splitAt))

/-! ## the patterns -/

def IsArtifact (m : List UInt8) : Prop :=
  (∃ c, m = 0x08 :: c :: patternTail) ∨ m = conptyStyleOnly

def findArtifact (s : List UInt8) : Option (List UInt8) :=
  if isCursorRedraw s then some (s.take 7)
  else if conptyStyleOnly.isPrefixOf s then some conptyStyleOnly
  else none

theorem isCursorRedraw_iff {s : List UInt8} :
    isCursorRedraw s = true ↔ ∃ c data, s = 0x08 :: c :: (patternTail ++ data) := by
  constructor
  · intro h
    unfold isCursorRedraw at h
    split at h
    · next b c data =>
      rw [Bool.and_eq_true, beq_iff_eq, isPrefixOf_iff_prefix] at h
      obtain ⟨rfl, data, rfl⟩ := h
      exact ⟨c, data, rfl⟩
    · cases h
  · rintro ⟨c, data, rfl⟩
    unfold isCursorRedraw
    rw [Bool.and_eq_true, isPrefixOf_iff_prefix]
    exact ⟨rfl, data, rfl⟩

theorem not_cursor_of_styleOnly {s : List UInt8} (h : conptyStyleOnly <+: s) :
    isCursorRedraw s = false := by
  refine Bool.eq_false_iff.mpr fun hcursor => ?_
  obtain ⟨c, data, rfl⟩ := isCursorRedraw_iff.mp hcursor
  exact absurd (cons_prefix_cons.mp h).1 (by decide)

def artifacts : GlobalMatch.Matcher UInt8 (List UInt8) where
  find := findArtifact
  Valid := IsArtifact
  text := id
  text_ne := by
    rintro m (⟨c, rfl⟩ | rfl)
    · exact List.cons_ne_nil _ _
    · exact List.cons_ne_nil _ _
  find_eq_some := by
    intro s m
    show findArtifact s = some m ↔ IsArtifact m ∧ m <+: s
    unfold findArtifact
    constructor
    · intro h
      split at h
      · next hcursor =>
        obtain ⟨c, data, rfl⟩ := isCursorRedraw_iff.mp hcursor
        cases h
        exact ⟨.inl ⟨c, rfl⟩, List.take_prefix _ _⟩
      split at h
      · next hstyle =>
        cases h
        exact ⟨.inr rfl, List.isPrefixOf_iff_prefix.mp hstyle⟩
      · cases h
    · rintro ⟨⟨c, rfl⟩ | rfl, hpre⟩
      · obtain ⟨data, rfl⟩ := hpre
        have hcursor : isCursorRedraw (0x08 :: c :: patternTail ++ data) = true :=
          isCursorRedraw_iff.mpr ⟨c, data, rfl⟩
        rw [if_pos hcursor]
        rfl
      · rw [not_cursor_of_styleOnly hpre, if_neg (by decide),
          if_pos (List.isPrefixOf_iff_prefix.mpr hpre)]

theorem stripFrom_eq (skip : Nat) (data : List UInt8) :
    stripFrom skip data = stripConptyArtifacts (data.drop skip) := by
  induction data generalizing skip with
  | nil => cases skip <;> rfl
  | cons c data ih =>
    cases skip with
    | zero => rfl
    | succ skip => exact ih skip

theorem strip_cons (c : UInt8) (data : List UInt8) :
    stripConptyArtifacts (c :: data) =
      if isCursorRedraw (c :: data) then stripFrom 6 data
      else if conptyStyleOnly.isPrefixOf (c :: data) then
        stripFrom (conptyStyleOnly.length - 1) data
      else c :: stripConptyArtifacts data :=
  rfl

theorem strip_cursor (c : UInt8) (l : List UInt8) :
    stripConptyArtifacts (0x08 :: c :: patternTail ++ l) = stripConptyArtifacts l := by
  have hcursor : isCursorRedraw (0x08 :: (c :: patternTail ++ l)) = true :=
    isCursorRedraw_iff.mpr ⟨c, l, rfl⟩
  show stripConptyArtifacts (0x08 :: (c :: patternTail ++ l)) = _
  rw [strip_cons, if_pos hcursor, stripFrom_eq]
  rfl

theorem strip_styleOnly (l : List UInt8) :
    stripConptyArtifacts (conptyStyleOnly ++ l) = stripConptyArtifacts l := by
  have hpre : conptyStyleOnly <+: 0x1b :: (conptyStyleOnly.tail ++ l) := prefix_append _ _
  have hcursor := not_cursor_of_styleOnly hpre
  show stripConptyArtifacts (0x1b :: (conptyStyleOnly.tail ++ l)) = _
  rw [strip_cons, hcursor, if_neg (by decide), if_pos (List.isPrefixOf_iff_prefix.mpr hpre),
    stripFrom_eq]
  rfl

theorem strip_eq_replace (data : List UInt8) :
    stripConptyArtifacts data = GlobalMatch.replace artifacts (fun _ => []) data := by
  induction data using GlobalMatch.reading_induction (M := artifacts) with
  | nil => rfl
  | symbol c l hfind ih =>
    have hnone : findArtifact (c :: l) = none := hfind
    unfold findArtifact at hnone
    have hstep : stripConptyArtifacts (c :: l) = c :: stripConptyArtifacts l := by
      split at hnone
      · cases hnone
      next hcursor =>
      split at hnone
      · cases hnone
      · next hstyle => rw [strip_cons, if_neg hcursor, if_neg hstyle]
    rw [GlobalMatch.replace_symbol _ hfind, hstep, ih]
  | found m l hm ih =>
    rw [GlobalMatch.replace_match _ hm, ← ih]
    show stripConptyArtifacts (m ++ l) = [] ++ _
    rcases hm with ⟨c, rfl⟩ | rfl
    · exact strip_cursor c l
    · exact strip_styleOnly l

/-! ## what is held back -/

theorem isPrefixOfAnyPattern_iff {x : List UInt8} (hx : x ≠ []) :
    isPrefixOfAnyPattern x = true ↔ GlobalMatch.Partial artifacts x := by
  unfold isPrefixOfAnyPattern
  simp only [Bool.or_eq_true, Bool.and_eq_true, decide_eq_true_eq, beq_iff_eq]
  constructor
  · rintro (⟨⟨hlen, hhead⟩, hrest⟩ | ⟨⟨hlen, -⟩, hrest⟩)
    · match x, hhead, hrest with
      | [b], hhead, _ =>
        cases hhead
        exact ⟨0x08 :: 0 :: patternTail, _, .inl ⟨0, rfl⟩, hx, by decide, rfl⟩
      | b :: c :: data, hhead, hrest =>
        cases hhead
        have hdata : data = patternTail.take data.length := by
          rcases hrest with (h | h) | h
          · simp at h
          · have hnil : data = [] := by simpa using h
            rw [hnil]
            rfl
          · exact h
        have hb : patternTail.drop data.length ≠ [] := by
          have hfive : patternTail.length = 5 := rfl
          simp only [length_cons] at hlen
          exact fun hnil => absurd (drop_eq_nil_iff.mp hnil) (by omega)
        refine ⟨0x08 :: c :: patternTail, patternTail.drop data.length, .inl ⟨c, rfl⟩, hx, hb, ?_⟩
        have hsplit := take_append_drop data.length patternTail
        rw [← hdata] at hsplit
        exact (congrArg (fun t => 0x08 :: c :: t) hsplit).symm
    · refine ⟨conptyStyleOnly, conptyStyleOnly.drop x.length, .inr rfl, hx, ?_, ?_⟩
      · exact fun hnil => absurd (drop_eq_nil_iff.mp hnil) (by omega)
      · have hsplit := take_append_drop x.length conptyStyleOnly
        rw [← hrest] at hsplit
        exact hsplit.symm
  rintro ⟨m, b, ⟨c, rfl⟩ | rfl, -, hb, htext⟩
  · have htext : 0x08 :: c :: patternTail = x ++ b := htext
    have hpos := length_pos_iff.mpr hb
    have hlen := congrArg length htext
    rw [length_append] at hlen
    have hseven : (0x08 :: c :: patternTail).length = 7 := rfl
    left
    match x, hx, htext with
    | [d], _, htext =>
      obtain ⟨rfl, -⟩ := cons.inj htext
      exact ⟨⟨by simp, rfl⟩, .inl (.inl rfl)⟩
    | d :: e :: t, _, htext =>
      obtain ⟨rfl, htail⟩ := cons.inj htext
      obtain ⟨rfl, hrest⟩ := cons.inj htail
      have hrest : patternTail = t ++ b := hrest
      refine ⟨⟨by omega, rfl⟩, .inr ?_⟩
      rw [hrest]
      exact (@take_left _ t b).symm
  have htext : conptyStyleOnly = x ++ b := htext
  have hpos := length_pos_iff.mpr hb
  have hlen := congrArg length htext
  rw [length_append] at hlen
  right
  refine ⟨⟨by omega, ?_⟩, ?_⟩
  · obtain ⟨d, t, rfl⟩ := exists_cons_of_ne_nil hx
    rw [cons_append] at htext
    obtain ⟨rfl, -⟩ := cons.inj (show 0x1b :: conptyStyleOnly.tail = d :: (t ++ b) from htext)
    rfl
  · rw [htext, take_left]

theorem Partial.length_le {x : List UInt8} (h : GlobalMatch.Partial artifacts x) : x.length ≤ 24 := by
  obtain ⟨m, b, hm, -, hb, htext⟩ := h
  have hpos := length_pos_iff.mpr hb
  have hlen := congrArg length (show m = x ++ b from htext)
  rw [length_append] at hlen
  rcases hm with ⟨c, rfl⟩ | rfl
  · have hseven : (0x08 :: c :: patternTail).length = 7 := rfl
    omega
  · have htwentyFive : conptyStyleOnly.length = 25 := rfl
    omega

theorem Partial.head {x : List UInt8} (h : GlobalMatch.Partial artifacts x) :
    x.head? = some 0x08 ∨ x.head? = some 0x1b := by
  obtain ⟨m, b, hm, hx, -, htext⟩ := h
  obtain ⟨d, t, rfl⟩ := exists_cons_of_ne_nil hx
  rcases hm with ⟨c, rfl⟩ | rfl
  · obtain ⟨rfl, -⟩ := cons.inj (show 0x08 :: c :: patternTail = d :: (t ++ b) from htext)
    exact .inl rfl
  · obtain ⟨rfl, -⟩ := cons.inj (show 0x1b :: conptyStyleOnly.tail = d :: (t ++ b) from htext)
    exact .inr rfl

theorem drop_cursor_not_prefix (c : UInt8) {k : Nat} (hpos : 0 < k) (hlt : k < 7) {m : List UInt8}
    (hm : IsArtifact m) : ¬ (0x08 :: c :: patternTail).drop k <+: m := by
  rcases hm with ⟨d, rfl⟩ | rfl
  · interval_cases k <;> simp [patternTail]
  · interval_cases k <;> simp [patternTail, conptyStyleOnly]

theorem drop_styleOnly_not_prefix {k : Nat} (hpos : 0 < k) (hlt : k < 25) {m : List UInt8}
    (hm : IsArtifact m) : ¬ conptyStyleOnly.drop k <+: m := by
  have hdrop : ∀ k < 25, 0 < k →
      (conptyStyleOnly.drop k).head? ≠ some 0x08 ∧ conptyStyleOnly.drop k ≠ [] ∧
        ¬ conptyStyleOnly.drop k <+: conptyStyleOnly := by
    decide
  obtain ⟨hhead, hne, hself⟩ := hdrop k hlt hpos
  rcases hm with ⟨d, rfl⟩ | rfl
  · rintro ⟨b, hb⟩
    obtain ⟨e, t, het⟩ := exists_cons_of_ne_nil hne
    rw [het] at hb hhead
    obtain ⟨rfl, -⟩ := cons.inj hb
    exact hhead rfl
  · exact hself

/-- **No artefact ends with the start of an artefact** -/
theorem artifacts_nonOverlapping : GlobalMatch.NonOverlapping artifacts := by
  intro m m' s a b hm hm' htext htext'
  have htext : m = s ++ a := htext
  have hpre : a <+: m' := ⟨b, (show m' = a ++ b from htext').symm⟩
  by_contra hne
  obtain ⟨hs, ha⟩ := not_or.mp hne
  have hs := length_pos_iff.mpr hs
  have ha := length_pos_iff.mpr ha
  have hdrop : a = m.drop s.length := by rw [htext, drop_left]
  have hlen := congrArg length htext
  rw [length_append] at hlen
  rcases hm with ⟨c, rfl⟩ | rfl
  · have hseven : (0x08 :: c :: patternTail).length = 7 := rfl
    exact drop_cursor_not_prefix c hs (by omega) hm' (hdrop ▸ hpre)
  · have htwentyFive : conptyStyleOnly.length = 25 := rfl
    exact drop_styleOnly_not_prefix hs (by omega) hm' (hdrop ▸ hpre)

theorem trailingPartialFrom_le (input : List UInt8) (n : Nat) : trailingPartialFrom input n ≤ n := by
  induction n with
  | zero => exact Nat.le_refl 0
  | succ n ih =>
    unfold trailingPartialFrom
    dsimp only
    split_ifs <;> omega

theorem trailingPartialFrom_spec {input : List UInt8} {n : Nat} (hn : n ≤ input.length) :
    (trailingPartialFrom input n = 0 ∨ GlobalMatch.Partial artifacts
        (input.drop (input.length - trailingPartialFrom input n))) ∧
      ∀ s, s <:+ input → s.length ≤ n → GlobalMatch.Partial artifacts s →
        s.length ≤ trailingPartialFrom input n := by
  induction n with
  | zero => exact ⟨.inl rfl, fun s _ hlen _ => hlen⟩
  | succ n ih =>
    obtain ⟨ihstart, ihlongest⟩ := ih (by omega)
    have hlen : (input.drop (input.length - (n + 1))).length = n + 1 := by
      rw [length_drop]
      omega
    have hne : input.drop (input.length - (n + 1)) ≠ [] := ne_nil_of_length_pos (by omega)
    have hshorter : ¬ GlobalMatch.Partial artifacts (input.drop (input.length - (n + 1))) →
        ∀ s, s <:+ input → s.length ≤ n + 1 → GlobalMatch.Partial artifacts s →
          s.length ≤ trailingPartialFrom input n := by
      intro hnot s hs hle hpartial
      by_cases hfull : s.length = n + 1
      · rw [suffix_iff_eq_drop.mp hs, hfull] at hpartial
        exact absurd hpartial hnot
      · exact ihlongest s hs (by omega) hpartial
    unfold trailingPartialFrom
    dsimp only
    split
    · next hhead =>
      refine ⟨ihstart, hshorter fun hpartial => ?_⟩
      rcases Partial.head hpartial with h | h <;> simp [h] at hhead
    split
    · next hprefix => exact ⟨.inr ((isPrefixOfAnyPattern_iff hne).mp hprefix), fun s _ hle _ => hle⟩
    · next hprefix =>
      exact ⟨ihstart, hshorter fun hpartial => hprefix ((isPrefixOfAnyPattern_iff hne).mpr hpartial)⟩

theorem trailingPartial_carries (input : List UInt8) :
    GlobalMatch.Carries artifacts (input.take (input.length - trailingPartialLen input))
      (input.drop (input.length - trailingPartialLen input)) := by
  have hle : trailingPartialLen input ≤ min 24 input.length := trailingPartialFrom_le _ _
  obtain ⟨hstart, hlongest⟩ :=
    trailingPartialFrom_spec (Nat.min_le_right 24 input.length)
  constructor
  · refine hstart.imp_left fun hzero => ?_
    have hzero : trailingPartialLen input = 0 := hzero
    rw [hzero, Nat.sub_zero, drop_length]
  intro s hs hpartial
  rw [take_append_drop] at hs
  have hmin := hlongest s hs (le_min (Partial.length_le hpartial) hs.length_le) hpartial
  have hmin : s.length ≤ trailingPartialLen input := hmin
  rw [length_drop]
  omega

open Transducer

theorem strip_read (carry chunk rest : List UInt8) :
    stripConptyArtifacts (carry ++ chunk ++ rest) =
      (sanitizeWindowsOutput false carry chunk).2 ++
        stripConptyArtifacts ((sanitizeWindowsOutput false carry chunk).1 ++ rest) := by
  have hcarries := trailingPartial_carries (carry ++ chunk)
  have hcut := hcarries.replace_append artifacts_nonOverlapping (fun _ => []) rest
  rw [← append_assoc, take_append_drop, ← strip_eq_replace, ← strip_eq_replace,
    ← strip_eq_replace] at hcut
  exact hcut

theorem feed_sanitize (carry : List UInt8) (chunks : List (List UInt8)) :
    (feed (sanitizeWindowsOutput false) carry chunks).2 ++
        stripConptyArtifacts (feed (sanitizeWindowsOutput false) carry chunks).1 =
      stripConptyArtifacts (carry ++ chunks.flatten) := by
  induction chunks generalizing carry with
  | nil =>
    rw [feed_nil, flatten_nil, append_nil]
    rfl
  | cons chunk chunks ih =>
    rw [feed_cons, append_assoc, ih, flatten_cons, ← append_assoc, strip_read]

theorem carry_length_le (carry chunk : List UInt8) :
    (sanitizeWindowsOutput false carry chunk).1.length ≤ 24 := by
  have hle : trailingPartialLen (carry ++ chunk) ≤ min 24 _ := trailingPartialFrom_le _ _
  show ((carry ++ chunk).drop _).length ≤ 24
  rw [length_drop]
  omega

/-- **The reads come out as the whole stream**, and no more than 24 bytes are ever held back -/
theorem sanitize_chunks (chunks : List (List UInt8)) :
    (feed (sanitizeWindowsOutput false) [] chunks).2 ++
        stripConptyArtifacts (feed (sanitizeWindowsOutput false) [] chunks).1 =
      stripConptyArtifacts chunks.flatten ∧
    (feed (sanitizeWindowsOutput false) [] chunks).1.length ≤ 24 := by
  refine ⟨feed_sanitize [] chunks, ?_⟩
  rcases chunks.eq_nil_or_concat with rfl | ⟨before, last, rfl⟩
  · exact Nat.zero_le 24
  · rw [concat_eq_append, feed_snoc]
    exact carry_length_le _ _

/-- a backspace is the character of another redraw, and both are cut -/
example :
    (feed (sanitizeWindowsOutput false) []
      [[0x41, 0x08], [0x08, 0x1b, 0x5b], [0x37, 0x6d, 0x20, 0x08], [0x42]]) =
      ([0x08, 0x42], [0x41]) := by
  decide

end CcPanes.Conpty

import CcPanes.Foundation.LastMatch
import Mathlib.Data.List.DropRight
import Mathlib.Data.List.Induction
import Mathlib.Algebra.GroupWithZero.Nat

/-!
# The runs of a title

`extract_uuid_like` of `osc_resume_capture.rs` finds the UUID in a title, whose end may be cut off.
A Rust `&str` is the list of its characters; an index into it counts bytes, and a slice at an index
that is inside a character is a panic.
-/

namespace CcPanes
open List

/-! ## strings -/

/-- `len()` -/
def byteLen (cs : List Char) : Nat := (cs.map Char.utf8Size).sum

/-- `&s[i..]` -/
def sliceFrom : List Char → Nat → Option (List Char)
  | cs, 0 => some cs
  | [], _ + 1 => none
  | c :: cs, i + 1 => if c.utf8Size ≤ i + 1 then sliceFrom cs (i + 1 - c.utf8Size) else none

/-- `&s[..i]` -/
def sliceTo : List Char → Nat → Option (List Char)
  | _, 0 => some []
  | [], _ + 1 => none
  | c :: cs, i + 1 =>
    if c.utf8Size ≤ i + 1 then (sliceTo cs (i + 1 - c.utf8Size)).map (c :: ·) else none

/-- `char_indices()`, from the index `i` on -/
def charIndices (i : Nat) : List Char → List (Nat × Char)
  | [] => []
  | c :: cs => (i, c) :: charIndices (i + c.utf8Size) cs

theorem byteLen_nil : byteLen [] = 0 := rfl

theorem byteLen_cons (c : Char) (cs : List Char) : byteLen (c :: cs) = c.utf8Size + byteLen cs := by
  simp [byteLen]

theorem byteLen_append (a b : List Char) : byteLen (a ++ b) = byteLen a + byteLen b := by
  simp [byteLen]

theorem sliceFrom_append (a b : List Char) : sliceFrom (a ++ b) (byteLen a) = some b := by
  induction a with
  | nil => cases b <;> rfl
  | cons c a ih =>
    rw [byteLen_cons]
    have hc := c.utf8Size_pos
    obtain ⟨i, hi⟩ : ∃ i, c.utf8Size + byteLen a = i + 1 := ⟨c.utf8Size + byteLen a - 1, by omega⟩
    rw [hi, cons_append, sliceFrom, if_pos (by omega), ← hi, Nat.add_sub_cancel_left]
    exact ih

theorem sliceFrom_eq_some {cs b : List Char} {i : Nat} (h : sliceFrom cs i = some b) :
    ∃ a, cs = a ++ b ∧ byteLen a = i := by
  induction cs generalizing i with
  | nil =>
    cases i with
    | zero =>
      cases h
      exact ⟨[], rfl, rfl⟩
    | succ i => cases h
  | cons c cs ih =>
    cases i with
    | zero =>
      cases h
      exact ⟨[], rfl, rfl⟩
    | succ i =>
      rw [sliceFrom] at h
      by_cases hc : c.utf8Size ≤ i + 1
      · rw [if_pos hc] at h
        obtain ⟨a, rfl, ha⟩ := ih h
        refine ⟨c :: a, rfl, ?_⟩
        rw [byteLen_cons]
        omega
      · rw [if_neg hc] at h
        cases h

theorem sliceTo_append (a b : List Char) : sliceTo (a ++ b) (byteLen a) = some a := by
  induction a with
  | nil => cases b <;> rfl
  | cons c a ih =>
    rw [byteLen_cons]
    have hc := c.utf8Size_pos
    obtain ⟨i, hi⟩ : ∃ i, c.utf8Size + byteLen a = i + 1 := ⟨c.utf8Size + byteLen a - 1, by omega⟩
    rw [hi, cons_append, sliceTo, if_pos (by omega), ← hi, Nat.add_sub_cancel_left, ih]
    rfl

/-! ## the runs of a title -/

def minPrefixLen : Nat := 23
def fullUuidLen : Nat := 36
def maxTitleLen : Nat := 256

/-- `c.is_ascii_hexdigit() && !c.is_ascii_uppercase() || c == '-'` -/
def isUuidChar (c : Char) : Bool :=
  ('0' ≤ c && c ≤ '9' || 'a' ≤ c && c ≤ 'f' || 'A' ≤ c && c ≤ 'F') && !('A' ≤ c && c ≤ 'Z') ||
    c = '-'

def isUuidShaped (run : List Char) : Bool :=
  if byteLen run < minPrefixLen || byteLen run > fullUuidLen then false
  else (charIndices 0 run).all fun (idx, c) =>
    (idx = 8 || idx = 13 || idx = 18 || idx = 23) == (c = '-')

/-- one round of the loop of `extract_uuid_like`; the state is `run_start` and `best` -/
def uuidRound (chars : List Char) (s : Option Nat × Option (List Char)) (e : Char × Nat) :
    Option Nat × Option (List Char) :=
  let (c, idx) := e
  if isUuidChar c then (some (s.1.getD idx), s.2)
  else
    match s.1 with
    | none => (none, s.2)
    | some start =>
      let run := ((chars.take idx).drop start).rdropWhile (· = '-')
      (none, if isUuidShaped run then some run else s.2)

def extractUuidLike (text : List Char) : Option (List Char) :=
  ((text ++ [' ']).zipIdx.foldl (uuidRound text) (none, none)).2

def UuidShaped (run : List Char) : Prop :=
  23 ≤ run.length ∧ run.length ≤ 36 ∧
    ∀ i c, run[i]? = some c → (c = '-' ↔ i = 8 ∨ i = 13 ∨ i = 18 ∨ i = 23)

/-- the characters of a UUID as far as they go from the position `p` on, with none before -/
def RunAt (text : List Char) (p : Nat) (run : List Char) : Prop :=
  p ≤ text.length ∧ (∀ c ∈ (text.take p).getLast?, isUuidChar c = false) ∧
    run = (text.drop p).takeWhile isUuidChar

def UuidRun (text : List Char) (p : Nat) (v : Option (List Char)) : Prop :=
  ∃ run, RunAt text p run ∧ UuidShaped (run.rdropWhile (· = '-')) ∧
    v = some (run.rdropWhile (· = '-'))

theorem isUuidChar_size {c : Char} (h : isUuidChar c = true) : c.utf8Size = 1 := by
  have hle : c.val ≤ 0x7f := by
    simp only [isUuidChar, Bool.or_eq_true, Bool.and_eq_true, decide_eq_true_eq, Char.le_def] at h
    rcases h with h | h
    · obtain ⟨(⟨-, h⟩ | ⟨-, h⟩) | ⟨-, h⟩, -⟩ := h
      · exact Nat.le_trans h (by decide)
      · exact Nat.le_trans h (by decide)
      · exact Nat.le_trans h (by decide)
    · rw [h]
      decide
  exact Char.utf8Size_eq_one_iff.mpr hle

theorem byteLen_ascii {cs : List Char} (h : ∀ c ∈ cs, c.utf8Size = 1) : byteLen cs = cs.length := by
  induction cs with
  | nil => rfl
  | cons c cs ih =>
    rw [byteLen_cons, h c mem_cons_self, ih fun c' hc' => h c' (mem_cons_of_mem _ hc'), length_cons]
    omega

theorem charIndices_ascii {cs : List Char} (h : ∀ c ∈ cs, c.utf8Size = 1) (i : Nat) :
    charIndices i cs = (cs.zipIdx i).map Prod.swap := by
  induction cs generalizing i with
  | nil => rfl
  | cons c cs ih =>
    rw [charIndices, h c mem_cons_self, zipIdx_cons, map_cons,
      ih fun c' hc' => h c' (mem_cons_of_mem _ hc')]
    rfl

theorem dash_round (c : Char) (i : Nat) :
    ((i = 8 || i = 13 || i = 18 || i = 23) == (c = '-' : Bool)) = true ↔
      (c = '-' ↔ i = 8 ∨ i = 13 ∨ i = 18 ∨ i = 23) := by
  rw [beq_iff_eq, Bool.eq_iff_iff]
  simp only [Bool.or_eq_true, decide_eq_true_eq, or_assoc]
  exact iff_comm

theorem isUuidShaped_iff {run : List Char} (h : ∀ c ∈ run, c.utf8Size = 1) :
    isUuidShaped run = true ↔ UuidShaped run := by
  rw [isUuidShaped, byteLen_ascii h, charIndices_ascii h, UuidShaped, minPrefixLen, fullUuidLen]
  by_cases hlen : (decide (run.length < 23) || decide (run.length > 36)) = true
  · rw [if_pos hlen]
    rw [Bool.or_eq_true, decide_eq_true_eq, decide_eq_true_eq] at hlen
    constructor
    · intro hfalse
      cases hfalse
    · intro hshape
      omega
  rw [if_neg hlen]
  rw [Bool.or_eq_true, decide_eq_true_eq, decide_eq_true_eq] at hlen
  rw [all_map, all_eq_true]
  constructor
  · intro hall
    refine ⟨by omega, by omega, ?_⟩
    intro i c hc
    exact (dash_round c i).mp (hall (c, i) (mem_zipIdx_iff_getElem?.mpr hc))
  · intro hshape e he
    exact (dash_round e.1 e.2).mpr (hshape.2.2 e.2 e.1 (mem_zipIdx_iff_getElem?.mp he))

/-- what the loop has found in the part `l` that it has read: complete runs in `a`, and the run `r`
that goes on -/
def RoundsAt (l : List Char) (s : Option Nat × Option (List Char)) : Prop :=
  ∃ a r, l = a ++ r ∧ r.all isUuidChar = true ∧ (∀ c ∈ a.getLast?, isUuidChar c = false) ∧
    s.1 = (if r = [] then none else some a.length) ∧ Latest (UuidRun a) none s.2

theorem not_shaped_nil : ¬UuidShaped ([].rdropWhile (· = '-')) := by
  intro h
  cases h.1

theorem not_uuidRun_nil (p : Nat) (v : Option (List Char)) : ¬UuidRun [] p v := by
  intro h
  obtain ⟨run, ⟨-, -, rfl⟩, hshape, -⟩ := h
  rw [drop_nil] at hshape
  exact not_shaped_nil hshape

theorem uuidRun_oneValue (text : List Char) : OneValue (UuidRun text) := by
  intro p v w h h'
  obtain ⟨run, ⟨-, -, rfl⟩, -, rfl⟩ := h
  obtain ⟨run, ⟨-, -, rfl⟩, -, rfl⟩ := h'
  rfl

theorem takeWhile_append_of_ends {a : List Char} (hne : a ≠ [])
    (ha : ∀ c ∈ a.getLast?, isUuidChar c = false) (b : List Char) :
    (a ++ b).takeWhile isUuidChar = a.takeWhile isUuidChar := by
  rw [takeWhile_append]
  refine if_neg ?_
  intro hlen
  have hall : a.takeWhile isUuidChar = a :=
    (List.takeWhile_prefix isUuidChar).eq_of_length hlen
  have hlast : a.getLast hne ∈ a.takeWhile isUuidChar := by
    rw [hall]
    exact getLast_mem hne
  have hchar := mem_takeWhile_imp hlast
  rw [ha _ (getLast?_eq_some_getLast hne)] at hchar
  cases hchar

theorem runAt_of_lt {a : List Char} (ha : ∀ c ∈ a.getLast?, isUuidChar c = false) (b : List Char)
    {p : Nat} (hp : p < a.length) (run : List Char) : RunAt (a ++ b) p run ↔ RunAt a p run := by
  have hne : a.drop p ≠ [] := by
    intro hnil
    have hlen := congrArg length hnil
    rw [length_drop, length_nil] at hlen
    omega
  have hlast : ∀ c ∈ (a.drop p).getLast?, isUuidChar c = false := by
    intro c hc
    refine ha c ?_
    rw [getLast?_drop, if_neg (by omega)] at hc
    exact hc
  rw [RunAt, RunAt, take_append_of_le_length (Nat.le_of_lt hp),
    drop_append_of_le_length (Nat.le_of_lt hp), takeWhile_append_of_ends hne hlast, length_append]
  constructor
  · intro h
    exact ⟨by omega, h.2⟩
  · intro h
    exact ⟨by omega, h.2⟩

theorem uuidRun_snoc {a r : List Char} {c : Char} (hr : r.all isUuidChar = true)
    (ha : ∀ c ∈ a.getLast?, isUuidChar c = false) (hc : isUuidChar c = false) (p : Nat)
    (v : Option (List Char)) :
    UuidRun (a ++ (r ++ [c])) p v ↔ UuidRun a p v ∨ p = a.length ∧
      UuidShaped (r.rdropWhile (· = '-')) ∧ v = some (r.rdropWhile (· = '-')) := by
  have hrun : (r ++ [c]).takeWhile isUuidChar = r := by
    rw [takeWhile_append_of_pos (all_eq_true.mp hr), takeWhile_cons_of_neg]
    · simp
    · simp [hc]
  rcases Nat.lt_trichotomy p a.length with hlt | rfl | hgt
  · have hne : p ≠ a.length := Nat.ne_of_lt hlt
    constructor
    · intro h
      obtain ⟨run, hrun, h⟩ := h
      exact .inl ⟨run, (runAt_of_lt ha _ hlt run).mp hrun, h⟩
    intro h
    rcases h with h | h
    · obtain ⟨run, hrun, h⟩ := h
      exact ⟨run, (runAt_of_lt ha _ hlt run).mpr hrun, h⟩
    · exact absurd h.1 hne
  · constructor
    · intro h
      obtain ⟨run, ⟨-, -, rfl⟩, hshape, rfl⟩ := h
      rw [drop_left, hrun] at hshape ⊢
      exact .inr ⟨rfl, hshape, rfl⟩
    intro h
    rcases h with h | h
    · obtain ⟨run, ⟨-, -, rfl⟩, hshape, -⟩ := h
      rw [drop_length] at hshape
      exact absurd hshape not_shaped_nil
    obtain ⟨-, hshape, rfl⟩ := h
    refine ⟨r, ⟨by simp, ?_, ?_⟩, hshape, rfl⟩
    · rw [take_left]
      exact ha
    · rw [drop_left, hrun]
  have hne : p ≠ a.length := Nat.ne_of_gt hgt
  obtain ⟨k, rfl⟩ : ∃ k, p = a.length + (k + 1) := ⟨p - a.length - 1, by omega⟩
  constructor
  · intro h
    obtain ⟨run, ⟨-, hbefore, rfl⟩, hshape, -⟩ := h
    rw [take_length_add_append] at hbefore
    rw [drop_length_add_append] at hshape
    by_cases hk : k < r.length
    · have hlast : (a ++ (r ++ [c]).take (k + 1)).getLast? = some r[k] := by
        rw [take_append_of_le_length hk, take_succ_eq_append_getElem hk,
          ← append_assoc, getLast?_concat]
      have hchar := hbefore _ hlast
      rw [all_eq_true.mp hr _ (getElem_mem hk)] at hchar
      cases hchar
    · rw [drop_eq_nil_of_le (by simp; omega)] at hshape
      exact absurd hshape not_shaped_nil
  · intro h
    rcases h with h | h
    · obtain ⟨run, ⟨hle, -⟩, -⟩ := h
      omega
    · exact absurd h.1 hne

section
variable {text : List Char} {best : Option (List Char)} {c : Char} {idx start : Nat}

theorem uuidRound_char (s : Option Nat × Option (List Char)) (hc : isUuidChar c = true) :
    uuidRound text s (c, idx) = (some (s.1.getD idx), s.2) := by
  show (if isUuidChar c then _ else _) = _
  rw [if_pos hc]

theorem uuidRound_gap (hc : isUuidChar c = false) :
    uuidRound text (none, best) (c, idx) = (none, best) := by
  show (if isUuidChar c then _ else _) = _
  rw [if_neg (by simp [hc])]

theorem uuidRound_end (hc : isUuidChar c = false) :
    uuidRound text (some start, best) (c, idx) =
      (none, if isUuidShaped (((text.take idx).drop start).rdropWhile (· = '-')) then
        some (((text.take idx).drop start).rdropWhile (· = '-')) else best) := by
  show (if isUuidChar c then _ else _) = _
  rw [if_neg (by simp [hc])]

end

theorem uuidRound_roundsAt {text l : List Char} {c : Char} {s : Option Nat × Option (List Char)}
    (hl : text.take l.length = l) (h : RoundsAt l s) :
    RoundsAt (l ++ [c]) (uuidRound text s (c, l.length)) := by
  obtain ⟨a, r, rfl, hr, ha, hstart, hbest⟩ := h
  obtain ⟨runStart, best⟩ := s
  obtain rfl : runStart = if r = [] then none else some a.length := hstart
  cases hc : isUuidChar c with
  | true =>
    rw [uuidRound_char _ hc]
    refine ⟨a, r ++ [c], by simp, by simp [hr, hc], ha, ?_, hbest⟩
    show some ((if r = [] then none else some a.length).getD (a ++ r).length) = _
    rw [if_neg (by simp : r ++ [c] ≠ [])]
    by_cases hnil : r = []
    · subst hnil
      simp
    · rw [if_neg hnil]
      rfl
  | false =>
    have hcomplete := uuidRun_snoc hr ha hc
    have hend : ∀ c' ∈ (a ++ (r ++ [c])).getLast?, isUuidChar c' = false := by
      intro c' hc'
      rw [← append_assoc, getLast?_concat] at hc'
      cases hc'
      exact hc
    by_cases hnil : r = []
    · subst hnil
      rw [if_pos rfl, uuidRound_gap hc]
      refine ⟨a ++ ([] ++ [c]), [], by simp, rfl, hend, rfl, hbest.congr ?_⟩
      intro p v
      rw [hcomplete]
      constructor
      · exact .inl
      intro h
      rcases h with h | h
      · exact h
      · exact absurd h.2.1 not_shaped_nil
    rw [if_neg hnil, uuidRound_end hc, hl, drop_left]
    refine ⟨a ++ (r ++ [c]), [], by simp, rfl, hend, rfl, ?_⟩
    have hsize : ∀ c ∈ r.rdropWhile (· = '-'), c.utf8Size = 1 := by
      intro c' hc'
      exact isUuidChar_size (all_eq_true.mp hr _ ((List.rdropWhile_prefix _ _).subset hc'))
    have hlast : Latest (fun p v => p = a.length ∧ UuidShaped (r.rdropWhile (· = '-')) ∧
        v = some (r.rdropWhile (· = '-'))) best
        (if isUuidShaped (r.rdropWhile (· = '-')) then some (r.rdropWhile (· = '-'))
          else best) := by
      by_cases hshape : isUuidShaped (r.rdropWhile (· = '-')) = true
      · rw [if_pos hshape]
        refine .last ⟨a.length, ⟨rfl, (isUuidShaped_iff hsize).mp hshape, rfl⟩, ?_⟩
        intro q w hq
        exact Nat.le_of_eq hq.1
      rw [if_neg hshape]
      refine .none ?_
      intro p v h
      exact hshape ((isUuidShaped_iff hsize).mpr h.2.1)
    refine (hbest.union hlast ?_).congr ?_
    · intro p v q w hp hq
      obtain ⟨rfl, hq⟩ := hq
      obtain ⟨run, ⟨hle, -⟩, -⟩ := hp
      exact ⟨a.length, w, ⟨rfl, hq⟩, hle⟩
    · intro p v
      exact (hcomplete p v).symm

theorem uuidRun_space (text : List Char) (p : Nat) (v : Option (List Char)) :
    UuidRun (text ++ [' ']) p v ↔ UuidRun text p v := by
  have hspace : [' '].takeWhile isUuidChar = [] := rfl
  have htake : ∀ l : List Char, (l ++ [' ']).takeWhile isUuidChar = l.takeWhile isUuidChar := by
    intro l
    rw [takeWhile_append, hspace, append_nil]
    by_cases hlen : (l.takeWhile isUuidChar).length = l.length
    · rw [if_pos hlen]
      exact ((List.takeWhile_prefix isUuidChar).eq_of_length hlen).symm
    · rw [if_neg hlen]
  constructor
  · intro h
    obtain ⟨run, ⟨hle, hbefore, rfl⟩, hshape, rfl⟩ := h
    rw [length_append, length_singleton] at hle
    by_cases hp : p ≤ text.length
    · rw [take_append_of_le_length hp] at hbefore
      rw [drop_append_of_le_length hp, htake] at hshape ⊢
      exact ⟨_, ⟨hp, hbefore, rfl⟩, hshape, rfl⟩
    · rw [drop_eq_nil_of_le (by simp; omega)] at hshape
      exact absurd hshape not_shaped_nil
  intro h
  obtain ⟨run, ⟨hle, hbefore, rfl⟩, hshape, rfl⟩ := h
  refine ⟨_, ⟨?_, ?_, rfl⟩, ?_⟩
  · rw [length_append]
    omega
  · rw [take_append_of_le_length hle]
    exact hbefore
  · rw [drop_append_of_le_length hle, htake]
    exact ⟨hshape, rfl⟩

theorem extractUuidLike_latest (text : List Char) :
    Latest (UuidRun text) none (extractUuidLike text) := by
  have hrounds : ∀ l, l <+: text ++ [' '] →
      RoundsAt l (l.zipIdx.foldl (uuidRound text) (none, none)) := by
    intro l
    induction l using reverseRecOn with
    | nil =>
      intro _
      exact ⟨[], [], rfl, rfl, by simp, rfl, .none not_uuidRun_nil⟩
    | append_singleton l c ih =>
      intro hprefix
      have hl := ih ((prefix_append l [c]).trans hprefix)
      rw [zipIdx_append, foldl_append]
      have htake : text.take l.length = l := by
        have hle : l.length ≤ text.length := by
          have hle := hprefix.length_le
          simp at hle
          omega
        have hpre : l <+: text := prefix_of_prefix_length_le
          ((prefix_append l [c]).trans hprefix) (prefix_append text [' ']) hle
        exact (prefix_iff_eq_take.mp hpre).symm
      have hround := uuidRound_roundsAt (c := c) htake hl
      simpa using hround
  obtain ⟨a, r, e, hr, -, -, hbest⟩ := hrounds _ (prefix_refl _)
  have hnil : r = [] := by
    rcases eq_nil_or_concat r with hnil | ⟨r', c, rfl⟩
    · exact hnil
    rw [concat_eq_append, ← append_assoc] at e
    obtain ⟨-, ec⟩ := append_inj' e rfl
    rw [concat_eq_append, ← ec] at hr
    simp [isUuidChar] at hr
  subst hnil
  rw [append_nil] at e
  subst e
  exact hbest.congr (uuidRun_space text)

end CcPanes

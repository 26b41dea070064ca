import Mathlib.Data.List.Infix

/-!
# UTF-8

A text as the bytes of its characters, and the check of bytes that may end inside one of them.
-/

namespace Utf8
open List

variable {x : List UInt8} {a : UInt8}

def encode (cs : List Char) : List UInt8 := cs.flatMap String.utf8EncodeChar

theorem encode_cons (c : Char) (cs : List Char) :
    encode (c :: cs) = String.utf8EncodeChar c ++ encode cs := rfl

def IsUtf8 (x : List UInt8) : Prop := ∃ cs, x = encode cs

/-- a text, as its bytes -/
structure Text where
  bytes : List UInt8
  isUtf8 : IsUtf8 bytes

/-! ## the bytes of one character -/

def isContinuation (b : UInt8) : Bool := 0x80 ≤ b.toNat && b.toNat ≤ 0xbf

/-- the length of a sequence by its first byte, `0` if there is none -/
def charWidth (b : UInt8) : Nat :=
  if b.toNat < 0x80 then 1
  else if b.toNat < 0xc2 then 0
  else if b.toNat < 0xe0 then 2
  else if b.toNat < 0xf0 then 3
  else if b.toNat < 0xf5 then 4
  else 0

/-- the second byte fits the first: no overlong sequence, no surrogate, none beyond `0x10ffff` -/
def secondFits (a b : UInt8) : Bool :=
  if a.toNat = 0xe0 then 0xa0 ≤ b.toNat && b.toNat ≤ 0xbf
  else if a.toNat = 0xed then 0x80 ≤ b.toNat && b.toNat ≤ 0x9f
  else if a.toNat = 0xf0 then 0x90 ≤ b.toNat && b.toNat ≤ 0xbf
  else if a.toNat = 0xf4 then 0x80 ≤ b.toNat && b.toNat ≤ 0x8f
  else isContinuation b

def Sequence : List UInt8 → Prop
  | [a] => charWidth a = 1
  | [a, b] => charWidth a = 2 ∧ secondFits a b
  | [a, b, c] => charWidth a = 3 ∧ secondFits a b ∧ isContinuation c
  | [a, b, c, d] => charWidth a = 4 ∧ secondFits a b ∧ isContinuation c ∧ isContinuation d
  | _ => False

theorem Sequence.length_le (h : Sequence x) : x.length ≤ 4 := by
  match x, h with
  | [_], _ => exact Nat.le_add_left 1 3
  | [_, _], _ => exact Nat.le_add_left 2 2
  | [_, _, _], _ => exact Nat.le_add_left 3 1
  | [_, _, _, _], _ => exact Nat.le_refl 4

theorem Sequence.ne_nil (h : Sequence x) : x ≠ [] := by
  rintro rfl
  exact h

theorem charWidth_eq_one : charWidth a = 1 ↔ a.toNat < 0x80 := by
  unfold charWidth
  split_ifs <;> simp <;> omega

theorem charWidth_eq_two : charWidth a = 2 ↔ 0xc2 ≤ a.toNat ∧ a.toNat < 0xe0 := by
  unfold charWidth
  split_ifs <;> simp <;> omega

theorem charWidth_eq_three : charWidth a = 3 ↔ 0xe0 ≤ a.toNat ∧ a.toNat < 0xf0 := by
  unfold charWidth
  split_ifs <;> simp <;> omega

theorem charWidth_eq_four : charWidth a = 4 ↔ 0xf0 ≤ a.toNat ∧ a.toNat < 0xf5 := by
  unfold charWidth
  split_ifs <;> simp <;> omega

theorem isContinuation_iff {b : UInt8} :
    isContinuation b = true ↔ 0x80 ≤ b.toNat ∧ b.toNat ≤ 0xbf := by
  simp [isContinuation]

theorem secondFits_continuation {a b : UInt8} (h : secondFits a b = true) :
    0x80 ≤ b.toNat ∧ b.toNat ≤ 0xbf := by
  unfold secondFits at h
  split_ifs at h <;> simp [isContinuation] at h <;> omega

theorem toNat_ofNat {n : Nat} (h : n < 256) : (UInt8.ofNat n).toNat = n := by
  simp [UInt8.toNat_ofNat', Nat.mod_eq_of_lt h]

theorem ofNat_of_toNat {b : UInt8} {n : Nat} (h : n = b.toNat) : UInt8.ofNat n = b := by
  rw [h, UInt8.ofNat_toNat]

theorem char_valid (c : Char) :
    c.val.toNat < 0xd800 ∨ 0xdfff < c.val.toNat ∧ c.val.toNat < 0x110000 := by
  have h := c.valid
  exact h

theorem sequence_encodeChar (c : Char) : Sequence (String.utf8EncodeChar c) := by
  have hvalid := char_valid c
  unfold String.utf8EncodeChar
  dsimp only
  generalize c.val.toNat = v at hvalid
  split_ifs with h1 h2 h3
  · exact charWidth_eq_one.mpr (by rw [toNat_ofNat (by omega)]; omega)
  · have ha := toNat_ofNat (show v / 64 % 32 + 192 < 256 by omega)
    have hb := toNat_ofNat (show v % 64 + 128 < 256 by omega)
    refine ⟨charWidth_eq_two.mpr (by omega), ?_⟩
    unfold secondFits
    rw [ha, hb, if_neg (by omega), if_neg (by omega), if_neg (by omega), if_neg (by omega)]
    exact isContinuation_iff.mpr (by omega)
  · have ha := toNat_ofNat (show v / 4096 % 16 + 224 < 256 by omega)
    have hb := toNat_ofNat (show v / 64 % 64 + 128 < 256 by omega)
    have hc := toNat_ofNat (show v % 64 + 128 < 256 by omega)
    refine ⟨charWidth_eq_three.mpr (by omega), ?_, isContinuation_iff.mpr (by omega)⟩
    unfold secondFits
    split_ifs
    · simp only [Bool.and_eq_true, decide_eq_true_eq]
      omega
    · simp only [Bool.and_eq_true, decide_eq_true_eq]
      omega
    · omega
    · omega
    · exact isContinuation_iff.mpr (by omega)
  · have ha := toNat_ofNat (show v / 262144 % 8 + 240 < 256 by omega)
    have hb := toNat_ofNat (show v / 4096 % 64 + 128 < 256 by omega)
    have hc := toNat_ofNat (show v / 64 % 64 + 128 < 256 by omega)
    have hd := toNat_ofNat (show v % 64 + 128 < 256 by omega)
    refine ⟨charWidth_eq_four.mpr (by omega), ?_, isContinuation_iff.mpr (by omega),
      isContinuation_iff.mpr (by omega)⟩
    unfold secondFits
    split_ifs
    · omega
    · omega
    · simp only [Bool.and_eq_true, decide_eq_true_eq]
      omega
    · simp only [Bool.and_eq_true, decide_eq_true_eq]
      omega
    · exact isContinuation_iff.mpr (by omega)

theorem exists_char {v : Nat} (h : v < 0xd800 ∨ 0xdfff < v ∧ v < 0x110000) :
    ∃ c : Char, c.val.toNat = v :=
  ⟨Char.ofNatAux v h, rfl⟩

theorem exists_char_of_sequence (h : Sequence x) : ∃ c, x = String.utf8EncodeChar c := by
  match x, h with
  | [a], h =>
    have ha := charWidth_eq_one.mp h
    obtain ⟨c, hc⟩ := exists_char (v := a.toNat) (by omega)
    refine ⟨c, ?_⟩
    unfold String.utf8EncodeChar
    rw [hc]
    rw [if_pos (by omega), UInt8.ofNat_toNat]
  | [a, b], ⟨ha, hb⟩ =>
    have ha := charWidth_eq_two.mp ha
    have hb := secondFits_continuation hb
    obtain ⟨c, hc⟩ := exists_char (v := (a.toNat - 0xc0) * 64 + (b.toNat - 0x80)) (by omega)
    refine ⟨c, ?_⟩
    unfold String.utf8EncodeChar
    rw [if_neg (by omega), if_pos (by omega), ofNat_of_toNat (b := a) (by omega),
      ofNat_of_toNat (b := b) (by omega)]
  | [a, b, c], ⟨ha, hab, hc⟩ =>
    have ha := charWidth_eq_three.mp ha
    have hb := secondFits_continuation hab
    have hc := isContinuation_iff.mp hc
    have hrange : (a.toNat = 0xe0 → 0xa0 ≤ b.toNat) ∧ (a.toNat = 0xed → b.toNat ≤ 0x9f) := by
      unfold secondFits at hab
      split_ifs at hab <;> simp [isContinuation] at hab <;> omega
    obtain ⟨d, hd⟩ := exists_char
      (v := (a.toNat - 0xe0) * 4096 + (b.toNat - 0x80) * 64 + (c.toNat - 0x80)) (by omega)
    refine ⟨d, ?_⟩
    unfold String.utf8EncodeChar
    rw [if_neg (by omega), if_neg (by omega), if_pos (by omega), ofNat_of_toNat (b := a) (by omega),
      ofNat_of_toNat (b := b) (by omega), ofNat_of_toNat (b := c) (by omega)]
  | [a, b, c, d], ⟨ha, hab, hc, hd⟩ =>
    have ha := charWidth_eq_four.mp ha
    have hb := secondFits_continuation hab
    have hc := isContinuation_iff.mp hc
    have hd := isContinuation_iff.mp hd
    have hrange : (a.toNat = 0xf0 → 0x90 ≤ b.toNat) ∧ (a.toNat = 0xf4 → b.toNat ≤ 0x8f) := by
      unfold secondFits at hab
      split_ifs at hab <;> simp [isContinuation] at hab <;> omega
    obtain ⟨e, he⟩ := exists_char
      (v := (a.toNat - 0xf0) * 262144 + (b.toNat - 0x80) * 4096 + (c.toNat - 0x80) * 64 +
        (d.toNat - 0x80)) (by omega)
    refine ⟨e, ?_⟩
    unfold String.utf8EncodeChar
    rw [if_neg (by omega), if_neg (by omega), if_neg (by omega), ofNat_of_toNat (b := a) (by omega),
      ofNat_of_toNat (b := b) (by omega), ofNat_of_toNat (b := c) (by omega),
      ofNat_of_toNat (b := d) (by omega)]

/-- **The sequences are the encodings of the characters.** -/
theorem sequence_iff : Sequence x ↔ ∃ c, x = String.utf8EncodeChar c := by
  constructor
  · exact exists_char_of_sequence
  · rintro ⟨c, rfl⟩
    exact sequence_encodeChar c

/-! ## what bytes start with -/

inductive First where
  | char (width : Nat)
  | unfinished
  /-- the length of what no sequence starts with -/
  | invalid (errorLen : Nat)
deriving DecidableEq

/-- the bytes behind the second one of a sequence of `width` bytes, of which some are missing -/
def readRest (width : Nat) : (missing : Nat) → List UInt8 → First
  | 0, _ => .char width
  | _ + 1, [] => .unfinished
  | missing + 1, b :: x =>
    if isContinuation b then readRest width missing x else .invalid (width - (missing + 1))

def firstChar : List UInt8 → First
  | [] => .unfinished
  | a :: x =>
    if charWidth a = 0 then .invalid 1
    else if charWidth a = 1 then .char 1
    else
      match x with
      | [] => .unfinished
      | b :: x => if secondFits a b then readRest (charWidth a) (charWidth a - 2) x else .invalid 1

theorem firstChar_singleton (a : UInt8) : firstChar [a] =
    if charWidth a = 0 then .invalid 1 else if charWidth a = 1 then .char 1 else .unfinished :=
  rfl

theorem firstChar_cons_cons (a b : UInt8) (x : List UInt8) : firstChar (a :: b :: x) =
    if charWidth a = 0 then .invalid 1
    else if charWidth a = 1 then .char 1
    else if secondFits a b then readRest (charWidth a) (charWidth a - 2) x
    else .invalid 1 :=
  rfl

theorem firstChar_append {s : List UInt8} (h : Sequence s) (x : List UInt8) :
    firstChar (s ++ x) = .char s.length := by
  match s, h with
  | [a], h =>
    have h : charWidth a = 1 := h
    simp [firstChar, h]
  | [a, b], ⟨ha, hb⟩ => simp [firstChar, readRest, ha, hb]
  | [a, b, c], ⟨ha, hb, hc⟩ => simp [firstChar, readRest, ha, hb, hc]
  | [a, b, c, d], ⟨ha, hb, hc, hd⟩ => simp [firstChar, readRest, ha, hb, hc, hd]

theorem firstChar_cut {p q : List UInt8} (h : Sequence (p ++ q)) (hp : p ≠ []) (hq : q ≠ []) :
    firstChar p = .unfinished := by
  match p, q, hp, hq, h with
  | [a], [b], _, _, ⟨ha, _⟩ => simp [firstChar, ha]
  | [a], [b, c], _, _, ⟨ha, _⟩ => simp [firstChar, ha]
  | [a], [b, c, d], _, _, ⟨ha, _⟩ => simp [firstChar, ha]
  | [a, b], [c], _, _, ⟨ha, hb, _⟩ => simp [firstChar, readRest, ha, hb]
  | [a, b], [c, d], _, _, ⟨ha, hb, _⟩ => simp [firstChar, readRest, ha, hb]
  | [a, b, c], [d], _, _, ⟨ha, hb, hc, _⟩ => simp [firstChar, readRest, ha, hb, hc]
  | a :: b :: c :: d :: p, q, _, hq, h =>
    have hlen := h.length_le
    have hpos := length_pos_iff.mpr hq
    simp only [length_append, length_cons] at hlen
    omega

theorem charWidth_le (a : UInt8) : charWidth a ≤ 4 := by
  unfold charWidth
  split_ifs <;> omega

theorem readRest_char {width missing n : Nat} (h : readRest width missing x = .char n) :
    n = width ∧ ∃ s y, x = s ++ y ∧ s.length = missing ∧ ∀ b ∈ s, isContinuation b = true := by
  induction missing generalizing x with
  | zero => exact ⟨(First.char.inj h).symm, [], x, rfl, rfl, by simp⟩
  | succ missing ih =>
    cases x with
    | nil => cases h
    | cons b =>
      unfold readRest at h
      split at h
      · next hb =>
        obtain ⟨hn, s, y, rfl, hlen, hs⟩ := ih h
        exact ⟨hn, b :: s, y, rfl, congrArg (· + 1) hlen, forall_mem_cons.mpr ⟨hb, hs⟩⟩
      · cases h

theorem readRest_unfinished {width missing : Nat} (h : readRest width missing x = .unfinished) :
    x.length < missing := by
  induction missing generalizing x with
  | zero => cases h
  | succ missing ih =>
    cases x with
    | nil => exact Nat.succ_pos _
    | cons =>
      unfold readRest at h
      split at h
      · exact Nat.succ_lt_succ (ih h)
      · cases h

theorem sequence_of_firstChar {width : Nat} (h : firstChar x = .char width) :
    ∃ s y, x = s ++ y ∧ Sequence s ∧ s.length = width := by
  match x, h with
  | [a], h =>
    rw [firstChar_singleton] at h
    split_ifs at h with hzero hone
    exact ⟨[a], [], rfl, hone, First.char.inj h⟩
  | a :: b :: x, h =>
    rw [firstChar_cons_cons] at h
    split_ifs at h with hzero hone hfits
    · exact ⟨[a], b :: x, rfl, hone, First.char.inj h⟩
    obtain ⟨rfl, s, y, rfl, hlen, hs⟩ := readRest_char h
    refine ⟨a :: b :: s, y, rfl, ?_, ?_⟩
    · match s, hlen, hs with
      | [], hlen, _ => exact ⟨by simp at hlen; omega, hfits⟩
      | [c], hlen, hs =>
        rw [forall_mem_singleton] at hs
        exact ⟨by simp at hlen; omega, hfits, hs⟩
      | [c, d], hlen, hs =>
        rw [forall_mem_cons, forall_mem_singleton] at hs
        exact ⟨by simp at hlen; omega, hfits, hs.1, hs.2⟩
      | c :: d :: e :: s, hlen, _ =>
        have hle := charWidth_le a
        simp only [length_cons] at hlen
        omega
    · simp only [length_cons]
      omega

theorem length_of_unfinished (h : firstChar x = .unfinished) : x.length ≤ 3 := by
  match x, h with
  | [], _ => exact Nat.zero_le 3
  | [a], _ => exact Nat.le_add_left 1 2
  | a :: b :: x, h =>
    have hle := charWidth_le a
    rw [firstChar_cons_cons] at h
    split_ifs at h
    have hlt := readRest_unfinished h
    simp only [length_cons]
    omega

/-! ## the check of a whole -/

structure Utf8Error where
  validUpTo : Nat
  /-- `none` if the bytes end inside a sequence -/
  errorLen : Option Nat

/-- the first error behind `pos` bytes, `skip` bytes of the last sequence still to pass -/
def firstError : (skip pos : Nat) → List UInt8 → Option Utf8Error
  | _, _, [] => none
  | skip + 1, pos, _ :: x => firstError skip (pos + 1) x
  | 0, pos, a :: x =>
    match firstChar (a :: x) with
    | .char width => firstError (width - 1) (pos + 1) x
    | .unfinished => some ⟨pos, none⟩
    | .invalid errorLen => some ⟨pos, some errorLen⟩

theorem firstError_cons (pos : Nat) (a : UInt8) (x : List UInt8) :
    firstError 0 pos (a :: x) =
      match firstChar (a :: x) with
      | .char width => firstError (width - 1) (pos + 1) x
      | .unfinished => some ⟨pos, none⟩
      | .invalid errorLen => some ⟨pos, some errorLen⟩ :=
  rfl

theorem firstError_pass (s x : List UInt8) (pos : Nat) :
    firstError s.length pos (s ++ x) = firstError 0 (pos + s.length) x := by
  induction s generalizing pos with
  | nil => rfl
  | cons a s ih =>
    show firstError s.length (pos + 1) (s ++ x) = _
    rw [ih, length_cons, Nat.add_assoc, Nat.add_comm 1]

theorem firstError_sequence {s : List UInt8} (h : Sequence s) (x : List UInt8) (pos : Nat) :
    firstError 0 pos (s ++ x) = firstError 0 (pos + s.length) x := by
  have hfirst := firstChar_append h x
  obtain ⟨a, t, rfl⟩ := exists_cons_of_ne_nil h.ne_nil
  rw [cons_append] at hfirst ⊢
  rw [firstError_cons, hfirst]
  dsimp only
  rw [length_cons, Nat.add_sub_cancel, firstError_pass, Nat.add_assoc, Nat.add_comm 1]

theorem firstError_unfinished (hne : x ≠ []) (h : firstChar x = .unfinished) (pos : Nat) :
    firstError 0 pos x = some ⟨pos, none⟩ := by
  obtain ⟨a, y, rfl⟩ := exists_cons_of_ne_nil hne
  rw [firstError_cons, h]

/-- **In the first bytes of a text** the check passes whole characters, and stops at most at the start
of one that is cut. -/
theorem firstError_prefix (cs : List Char) {x rest : List UInt8} (h : x ++ rest = encode cs)
    (pos : Nat) :
    ∃ ds p, x = encode ds ++ p ∧ IsUtf8 (p ++ rest) ∧
      (p = [] ∧ firstError 0 pos x = none ∨
        (∃ c q, p ≠ [] ∧ q ≠ [] ∧ String.utf8EncodeChar c = p ++ q) ∧
          firstError 0 pos x = some ⟨pos + (encode ds).length, none⟩) := by
  induction cs generalizing x pos with
  | nil =>
    obtain ⟨rfl, rfl⟩ := append_eq_nil_iff.mp h
    exact ⟨[], [], rfl, ⟨[], rfl⟩, .inl ⟨rfl, rfl⟩⟩
  | cons c cs ih =>
    have hc := sequence_encodeChar c
    rcases append_eq_append_iff.mp h with ⟨q, hq, hrest⟩ | ⟨y, rfl, hy⟩
    · by_cases hx : x = []
      · subst hx
        exact ⟨[], [], rfl, ⟨c :: cs, h⟩, .inl ⟨rfl, rfl⟩⟩
      by_cases hqne : q = []
      · subst hqne
        rw [append_nil] at hq
        subst hq
        refine ⟨[c], [], by simp [encode], ⟨cs, hrest⟩, .inl ⟨rfl, ?_⟩⟩
        have hstep := firstError_sequence hc [] pos
        rw [append_nil] at hstep
        exact hstep
      · rw [hq] at hc
        refine ⟨[], x, rfl, ⟨c :: cs, h⟩, .inr ⟨⟨c, q, hx, hqne, hq⟩, ?_⟩⟩
        exact firstError_unfinished hx (firstChar_cut hc hx hqne) pos
    · obtain ⟨ds, p, rfl, hp, hend⟩ := ih hy.symm (pos + (String.utf8EncodeChar c).length)
      refine ⟨c :: ds, p, by rw [encode_cons, append_assoc], hp, ?_⟩
      rw [firstError_sequence hc]
      refine hend.imp_right fun ⟨hcut, herror⟩ => ⟨hcut, ?_⟩
      rw [herror, encode_cons, length_append, Nat.add_assoc]

/-- **In any bytes** the check passes a text and stops at what no character starts with, or at the end
if nothing is left. -/
theorem firstError_spec (x : List UInt8) (pos : Nat) :
    ∃ ds p, x = encode ds ++ p ∧
      (p = [] ∧ firstError 0 pos x = none ∨ p ≠ [] ∧ ∃ errorLen,
        firstError 0 pos x = some ⟨pos + (encode ds).length, errorLen⟩ ∧
          (errorLen = none → p.length ≤ 3)) := by
  induction hn : x.length using Nat.strongRecOn generalizing x pos with
  | _ n ih =>
    cases x with
    | nil => exact ⟨[], [], rfl, .inl ⟨rfl, rfl⟩⟩
    | cons a y =>
      cases hfirst : firstChar (a :: y) with
      | char =>
        obtain ⟨s, z, hsz, hs, -⟩ := sequence_of_firstChar hfirst
        have hpos := length_pos_iff.mpr hs.ne_nil
        have hlen := congrArg length hsz
        rw [length_append] at hlen
        obtain ⟨c, rfl⟩ := sequence_iff.mp hs
        obtain ⟨ds, p, rfl, hend⟩ := ih z.length (by omega) z (pos + (String.utf8EncodeChar c).length) rfl
        refine ⟨c :: ds, p, by rw [hsz, encode_cons, append_assoc], ?_⟩
        rw [hsz, firstError_sequence hs]
        refine hend.imp_right fun ⟨hne, errorLen, herror, hshort⟩ => ⟨hne, errorLen, ?_, hshort⟩
        rw [herror, encode_cons, length_append, Nat.add_assoc]
      | unfinished =>
        refine ⟨[], a :: y, rfl, .inr ⟨cons_ne_nil a y, none, ?_, fun _ => ?_⟩⟩
        · exact firstError_unfinished (cons_ne_nil a y) hfirst pos
        · exact length_of_unfinished hfirst
      | invalid errorLen =>
        refine ⟨[], a :: y, rfl, .inr ⟨cons_ne_nil a y, some errorLen, ?_, nofun⟩⟩
        rw [firstError_cons, hfirst]
        rfl

theorem isUtf8_of_no_error (h : firstError 0 0 x = none) : IsUtf8 x := by
  obtain ⟨ds, p, rfl, ⟨rfl, -⟩ | ⟨-, errorLen, herror, -⟩⟩ := firstError_spec x 0
  · exact ⟨ds, append_nil _⟩
  · rw [h] at herror
    cases herror

theorem not_isUtf8_of_cut {c : Char} {p q : List UInt8} (h : String.utf8EncodeChar c = p ++ q)
    (hp : p ≠ []) (hq : q ≠ []) : ¬ IsUtf8 p := by
  have hcut := firstChar_cut (h ▸ sequence_encodeChar c) hp hq
  rintro ⟨ds, rfl⟩
  cases ds with
  | nil => exact hp rfl
  | cons d =>
    rw [encode_cons, firstChar_append (sequence_encodeChar d)] at hcut
    cases hcut

theorem no_error_of_isUtf8 (h : IsUtf8 x) : firstError 0 0 x = none := by
  obtain ⟨cs, hcs⟩ := h
  obtain ⟨ds, p, -, hp, ⟨-, hnone⟩ | ⟨⟨c, q, hpne, hq, hcut⟩, -⟩⟩ :=
    firstError_prefix cs ((append_nil x).trans hcs) 0
  · exact hnone
  · rw [append_nil] at hp
    exact absurd hp (not_isUtf8_of_cut hcut hpne hq)

def fromUtf8 (x : List UInt8) : Except Utf8Error Text :=
  match h : firstError 0 0 x with
  | none => .ok ⟨x, isUtf8_of_no_error h⟩
  | some error => .error error

theorem fromUtf8_of_isUtf8 (h : IsUtf8 x) : fromUtf8 x = .ok ⟨x, h⟩ := by
  have hnone := no_error_of_isUtf8 h
  unfold fromUtf8
  split
  · rfl
  · next error herror =>
    rw [hnone] at herror
    cases herror

theorem fromUtf8_of_error {error : Utf8Error} (h : firstError 0 0 x = some error) :
    fromUtf8 x = .error error := by
  unfold fromUtf8
  split
  · next hnone =>
    rw [h] at hnone
    cases hnone
  · next error' herror =>
    cases h.symm.trans herror
    rfl

end Utf8

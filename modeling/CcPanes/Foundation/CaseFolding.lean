import Mathlib.Data.List.Basic

/-!
# Lower case, of ASCII letters and of all letters

`Char.toLower` changes the ASCII letters only.  The lower case of a text after the Unicode rules
replaces each character by one or more: a table (`CaseTables`), and the rule of the final sigma.
-/

namespace CaseFolding
open List

def ascii (c : Char) : Bool := c.val < 128

def kelvin : Char := '\u212a'
def sigma : Char := '\u03a3'

/-- The lower-case mapping of Unicode: ASCII characters have their ASCII lower case; the mapping of
no character is empty; that of another character holds one that is not ASCII, but for the Kelvin
sign. -/
structure CaseTables where
  mapping : Char → List Char
  finalSigma : List Char → List Char → Bool
  mapping_ascii : ∀ c, ascii c → mapping c = [c.toLower]
  mapping_ne_nil : ∀ c, mapping c ≠ []
  mapping_foreign : ∀ c, ascii c = false → c ≠ kelvin → ∃ d ∈ mapping c, ascii d = false
  mapping_kelvin : mapping kelvin = ['k']

/-- the mapping of a character, after and before these -/
def lowerChar (tables : CaseTables) (before : List Char) (c : Char) (behind : List Char) :
    List Char :=
  if c = sigma then [if tables.finalSigma before behind then '\u03c2' else '\u03c3']
  else tables.mapping c

/-- the text behind `before`, which is in reverse -/
def lowerFrom (tables : CaseTables) (before : List Char) : List Char → List Char
  | [] => []
  | c :: cs => lowerChar tables before c cs ++ lowerFrom tables (c :: before) cs

def lowerCase (tables : CaseTables) (text : List Char) : List Char := lowerFrom tables [] text

/-- ASCII characters, and characters without a lower case of their own -/
def Plain (tables : CaseTables) (c : Char) : Prop :=
  ascii c ∨ c ≠ sigma ∧ tables.mapping c = [c]

def Settled (tables : CaseTables) (c : Char) : Prop := c ≠ sigma ∧ tables.mapping c = [c]

theorem toLower_of_not_ascii {c : Char} (h : ascii c = false) : c.toLower = c := by
  have hc : ¬c.val < 128 := of_decide_eq_false h
  unfold Char.toLower
  rw [dif_neg]
  rintro ⟨-, hle⟩
  exact hc (UInt32.lt_of_le_of_lt hle (by decide))

theorem ascii_ne {c d : Char} (hc : ascii c) (hd : ascii d = false) : c ≠ d := by
  intro h
  rw [h, hd] at hc
  cases hc

section
variable (tables : CaseTables) (before : List Char)

theorem lowerChar_ascii {c : Char} (h : ascii c) (behind : List Char) :
    lowerChar tables before c behind = [c.toLower] := by
  rw [lowerChar, if_neg (ascii_ne h (by decide)), tables.mapping_ascii c h]

theorem lowerChar_ne_nil (c : Char) (behind : List Char) :
    lowerChar tables before c behind ≠ [] := by
  unfold lowerChar
  split
  · exact cons_ne_nil _ _
  · exact tables.mapping_ne_nil c

theorem lowerChar_eq_iff (c : Char) (behind : List Char) :
    lowerChar tables before c behind = [c.toLower] ↔ Plain tables c := by
  constructor
  · intro h
    cases hc : ascii c with
    | true => exact .inl hc
    | false =>
      rw [toLower_of_not_ascii hc] at h
      refine .inr ?_
      by_cases hs : c = sigma
      · rw [lowerChar, if_pos hs, hs] at h
        split at h <;> cases h
      · rw [lowerChar, if_neg hs] at h
        exact ⟨hs, h⟩
  · rintro (h | ⟨hs, h⟩)
    · exact lowerChar_ascii tables before h behind
    · cases hc : ascii c with
      | true => exact lowerChar_ascii tables before hc behind
      | false => rw [lowerChar, if_neg hs, h, toLower_of_not_ascii hc]

theorem length_le_lowerFrom (text : List Char) :
    text.length ≤ (lowerFrom tables before text).length := by
  induction text generalizing before with
  | nil => exact Nat.le_refl 0
  | cons c cs ih =>
    have hpos := length_pos_of_ne_nil (lowerChar_ne_nil tables before c cs)
    have hcs := ih (c :: before)
    rw [lowerFrom, length_append, length_cons]
    omega

theorem lowerChar_eq_self_iff (c : Char) (behind : List Char) :
    lowerChar tables before c behind = [c] ↔ Settled tables c := by
  unfold lowerChar Settled
  by_cases hs : c = sigma
  · rw [if_pos hs, hs]
    refine ⟨fun h => ?_, fun h => absurd rfl h.1⟩
    split at h <;> cases h
  · rw [if_neg hs]
    exact ⟨fun h => ⟨hs, h⟩, fun h => h.2⟩

/-- A lower case that leaves one character for each is settled character by character. -/
theorem lowerFrom_eq_map_iff {f : Char → Char} {P : Char → Prop}
    (h : ∀ before c behind, lowerChar tables before c behind = [f c] ↔ P c) (text : List Char) :
    lowerFrom tables before text = text.map f ↔ ∀ c ∈ text, P c := by
  induction text generalizing before with
  | nil => exact ⟨nofun, fun _ => rfl⟩
  | cons c cs ih =>
    rw [lowerFrom, map_cons, forall_mem_cons, ← ih (c :: before), ← h before c cs]
    constructor
    · intro h
      have hle := length_le_lowerFrom tables (c :: before) cs
      have hpos := length_pos_of_ne_nil (lowerChar_ne_nil tables before c cs)
      have hlen := congrArg length h
      rw [length_append, length_cons, length_map] at hlen
      have hone : (lowerChar tables before c cs).length = [f c].length := by
        show _ = 1
        omega
      exact append_inj h hone
    · rintro ⟨hc, hcs⟩
      rw [hc, hcs]
      rfl

theorem lowerChar_foreign {c : Char} (h : ascii c = false) (behind : List Char) :
    ∃ d ∈ lowerChar tables before c behind, ascii d = false ∨ d = 'k' := by
  unfold lowerChar
  split
  · split
    · exact ⟨_, mem_singleton_self _, .inl (by decide)⟩
    · exact ⟨_, mem_singleton_self _, .inl (by decide)⟩
  by_cases hk : c = kelvin
  · rw [hk, tables.mapping_kelvin]
    exact ⟨'k', mem_singleton_self _, .inr rfl⟩
  · obtain ⟨d, hd, hforeign⟩ := tables.mapping_foreign c h hk
    exact ⟨d, hd, .inl hforeign⟩

theorem ascii_of_lowerFrom {text : List Char}
    (h : ∀ d ∈ lowerFrom tables before text, ascii d ∧ d ≠ 'k') : ∀ c ∈ text, ascii c := by
  induction text generalizing before with
  | nil => exact nofun
  | cons c cs ih =>
    rw [forall_mem_cons]
    constructor
    · by_contra hc
      obtain ⟨d, hd, hforeign | hk⟩ :=
        lowerChar_foreign tables before (eq_false_of_ne_true hc) cs
      · have hd' := (h d (mem_append_left _ hd)).1
        rw [hforeign] at hd'
        cases hd'
      · exact (h d (mem_append_left _ hd)).2 hk
    · exact ih (c :: before) fun d hd => h d (mem_append_right _ hd)

end

theorem lowerCase_eq_map_iff (tables : CaseTables) (text : List Char) :
    lowerCase tables text = text.map Char.toLower ↔ ∀ c ∈ text, Plain tables c :=
  lowerFrom_eq_map_iff tables [] (lowerChar_eq_iff tables) text

theorem lowerCase_eq_self_iff (tables : CaseTables) (text : List Char) :
    lowerCase tables text = text ↔ ∀ c ∈ text, Settled tables c := by
  rw [← lowerFrom_eq_map_iff tables [] (f := id) (lowerChar_eq_self_iff tables) text, map_id]
  rfl

theorem lowerCase_ascii (tables : CaseTables) {text : List Char} (h : ∀ c ∈ text, ascii c) :
    lowerCase tables text = text.map Char.toLower :=
  (lowerCase_eq_map_iff tables text).mpr fun c hc => .inl (h c hc)

theorem lowerCase_eq_word_iff (tables : CaseTables) {word : List Char}
    (h : word.all fun d => ascii d && d ≠ 'k') (text : List Char) :
    lowerCase tables text = word ↔ text.map Char.toLower = word := by
  have hword : ∀ d ∈ word, ascii d ∧ d ≠ 'k' := by simpa using h
  constructor
  · intro h
    rw [← lowerCase_ascii tables (ascii_of_lowerFrom tables [] (by rw [← h] at hword; exact hword))]
    exact h
  intro h
  rw [lowerCase_ascii tables]
  · exact h
  intro c hc
  by_contra hforeign
  have hlower := toLower_of_not_ascii (eq_false_of_ne_true hforeign)
  have hmem : c.toLower ∈ word := by
    rw [← h]
    exact mem_map_of_mem hc
  rw [hlower] at hmem
  exact hforeign (hword c hmem).1

/-- tables in which ASCII letters and the Kelvin sign alone have a lower case -/
def asciiTables : CaseTables where
  mapping c := if c = kelvin then ['k'] else [c.toLower]
  finalSigma _ _ := false
  mapping_ascii := by
    intro c h
    rw [if_neg (ascii_ne h (by decide))]
  mapping_ne_nil := by
    intro c
    split <;> exact List.cons_ne_nil _ _
  mapping_foreign := by
    intro c h hk
    rw [if_neg hk, toLower_of_not_ascii h]
    exact ⟨c, List.mem_singleton_self c, h⟩
  mapping_kelvin := if_pos rfl

end CaseFolding

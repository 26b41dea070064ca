import CcPanes.View.SgrMeaning

/-!
# Stripping the background only

`stripSgrBackgroundSequence` of `terminalBufferMode.ts` reads the parameters without the arguments of
a foreground colour, so an argument that looks like a background or like the reverse video is
replaced or dropped.
-/

namespace CcPanes.Sgr
open List Option

variable {group : JsString} {params : List JsString}

/-! ## the loop -/

inductive Reading where
  | keep
  | drop
  | background
deriving DecidableEq

def reading (many : Bool) (group : JsString) : Reading :=
  match parseSgrCode ((group.splitOn colon).headD []) with
  | none => .keep
  | some value =>
    if IsBackground value then .background else if value = 7 ∧ many then .drop else .keep

/-- how many parameters the loop skips behind a background -/
def skipped (group : JsString) (next : Option JsString) : Nat :=
  if parseSgrCode ((group.splitOn colon).headD []) = some 48 then
    backgroundSkip (group.splitOn colon) next
  else 0

def backgroundReset : JsString := JsString.ofString "49"

/-- the groups that the loop keeps; `reset` if the background has been reset -/
def keptFrom (many : Bool) : (skip : Nat) → (reset : Bool) → List JsString → List JsString
  | _, _, [] => []
  | skip + 1, reset, _ :: params => keptFrom many skip reset params
  | 0, reset, group :: params =>
    match reading many group with
    | .keep => group :: keptFrom many 0 reset params
    | .drop => keptFrom many 0 reset params
    | .background =>
      (if reset then [] else [backgroundReset]) ++
        keptFrom many (skipped group params.head?) true params

theorem keptFrom_nil (many : Bool) (skip : Nat) (reset : Bool) : keptFrom many skip reset [] = [] := by
  cases skip <;> rfl

theorem keptFrom_skip (many : Bool) (skip : Nat) (reset : Bool) (params : List JsString) :
    keptFrom many skip reset params = keptFrom many 0 reset (params.drop skip) := by
  induction params generalizing skip with
  | nil => rw [drop_nil, keptFrom_nil, keptFrom_nil]
  | cons group params ih =>
    cases skip with
    | zero => rfl
    | succ skip => exact ih skip

theorem filterParams_cons (many : Bool) (group : JsString) (params : List JsString) (f : SgrFilter) :
    filterParams many 0 (group :: params) f =
      match reading many group with
      | .keep => filterParams many 0 params (f.push group)
      | .drop => filterParams many 0 params { f with changed := true }
      | .background => filterParams many (skipped group params.head?) params f.resetBackground := by
  unfold reading skipped
  rw [filterParams]
  cases parseSgrCode ((group.splitOn colon).headD []) with
  | none => rfl
  | some value =>
    dsimp only
    by_cases h48 : value = 48
    · rw [if_pos h48, if_pos (show IsBackground value by omega), if_pos (congrArg some h48)]
    have hskip : ¬ some value = some 48 := fun h => h48 (some.inj h)
    rw [if_neg h48, if_neg hskip]
    by_cases h7 : value = 7 ∧ many
    · rw [if_pos h7, if_neg (show ¬ IsBackground value by omega), if_pos h7]
    rw [if_neg h7]
    by_cases hbackground : IsBackground value
    · rw [if_pos (by omega), if_pos hbackground]
    · rw [if_neg (by omega), if_neg hbackground, if_neg h7]

theorem filterParams_kept (many : Bool) (skip : Nat) (params : List JsString) (f : SgrFilter) :
    (filterParams many skip params f).kept =
      f.kept ++ keptFrom many skip f.hasBackgroundReset params := by
  induction params generalizing skip f with
  | nil =>
    rw [keptFrom_nil, append_nil]
    cases skip <;> rfl
  | cons group params ih =>
    cases skip with
    | succ skip => exact ih skip f
    | zero =>
      rw [filterParams_cons, keptFrom]
      cases reading many group with
      | keep =>
        dsimp only
        rw [ih, SgrFilter.push, append_assoc]
        rfl
      | drop => exact ih 0 _
      | background =>
        dsimp only
        rw [ih, SgrFilter.resetBackground]
        dsimp only
        split_ifs
        · rfl
        · rw [append_assoc]
          rfl

theorem filterParams_changed (many : Bool) (skip : Nat) (params : List JsString) {f : SgrFilter}
    (h : f.changed = true) : (filterParams many skip params f).changed = true := by
  induction params generalizing skip f with
  | nil => cases skip <;> exact h
  | cons group params ih =>
    cases skip with
    | succ skip => exact ih skip h
    | zero =>
      rw [filterParams_cons]
      cases reading many group with
      | keep => exact ih 0 h
      | drop => exact ih 0 rfl
      | background => exact ih _ rfl

theorem keptFrom_unchanged (many : Bool) (params : List JsString) {f : SgrFilter}
    (h : (filterParams many 0 params f).changed = false) (reset : Bool) :
    keptFrom many 0 reset params = params := by
  induction params generalizing f with
  | nil => rfl
  | cons group params ih =>
    rw [filterParams_cons] at h
    rw [keptFrom]
    cases hreading : reading many group with
    | keep =>
      rw [hreading] at h
      dsimp only at h ⊢
      rw [ih h]
    | drop =>
      rw [hreading] at h
      rw [filterParams_changed many 0 params rfl] at h
      cases h
    | background =>
      rw [hreading] at h
      rw [filterParams_changed many _ params rfl] at h
      cases h

/-! ## the text of a sequence -/

def isSgrChar (c : UInt16) : Bool := isDigit c || c = colon

/-- the parameters of an SGR sequence -/
structure SgrSequence where
  params : List JsString
  nonempty : params ≠ []
  chars : ∀ group ∈ params, group.all isSgrChar

/-- `ESC [ … m` -/
def sgrText (params : List JsString) : JsString :=
  [esc, bracket] ++ [semicolon].intercalate params ++ [0x6d]

def SgrSequence.text (s : SgrSequence) : JsString := sgrText s.params

def SgrSequence.many (s : SgrSequence) : Bool := s.params.length > 1

def SgrSequence.kept (s : SgrSequence) : List JsString := keptFrom s.many 0 false s.params

theorem semicolon_not_mem (h : group.all isSgrChar) : semicolon ∉ group := by
  intro hmem
  cases all_eq_true.mp h _ hmem

theorem splitOn_text (hne : params ≠ []) (h : ∀ group ∈ params, semicolon ∉ group) :
    (((sgrText params).drop 2).dropLast).splitOn semicolon = params := by
  have hbody : ((sgrText params).drop 2).dropLast = [semicolon].intercalate params := by
    unfold sgrText
    exact dropLast_concat
  rw [hbody, splitOn_intercalate semicolon h hne]

theorem interpret_text {κ ρ : Type} (T : SgrTerminal κ ρ) (hne : params ≠ [])
    (h : ∀ group ∈ params, semicolon ∉ group) (a : Attributes κ ρ) :
    interpret T (sgrText params) a = interpretParams T params a := by
  unfold interpret
  rw [if_neg (by unfold sgrText; exact cons_ne_nil _ _), splitOn_text hne h]

variable {many : Bool}

theorem mem_keptFrom {skip : Nat} {reset : Bool} (h : group ∈ keptFrom many skip reset params) :
    group = backgroundReset ∨ (group ∈ params ∧ reading many group = .keep) := by
  induction params generalizing skip reset with
  | nil =>
    rw [keptFrom_nil] at h
    cases h
  | cons g params ih =>
    have hrest : ∀ {skip reset}, group ∈ keptFrom many skip reset params →
        group = backgroundReset ∨ (group ∈ g :: params ∧ reading many group = .keep) :=
      fun h => (ih h).imp_right fun h => ⟨mem_cons_of_mem g h.1, h.2⟩
    cases skip with
    | succ => exact hrest h
    | zero =>
      rw [keptFrom] at h
      cases hreading : reading many g with
      | keep =>
        rw [hreading] at h
        obtain rfl | h := mem_cons.mp h
        · exact .inr ⟨mem_cons_self, hreading⟩
        · exact hrest h
      | drop =>
        rw [hreading] at h
        exact hrest h
      | background =>
        rw [hreading] at h
        obtain h | h := mem_append.mp h
        · split_ifs at h
          · cases h
          · exact .inl (mem_singleton.mp h)
        · exact hrest h

theorem semicolon_not_mem_kept (s : SgrSequence) (h : group ∈ s.kept) : semicolon ∉ group := by
  obtain rfl | ⟨hmem, -⟩ := mem_keptFrom h
  · decide
  · exact semicolon_not_mem (s.chars group hmem)

/-- **The groups that are left are what the stripped sequence means.** -/
theorem interpret_strip {κ ρ : Type} (T : SgrTerminal κ ρ) (s : SgrSequence) (a : Attributes κ ρ) :
    interpret T (stripSgrBackgroundSequence s.text) a = interpretParams T s.kept a := by
  have hsplit := splitOn_text s.nonempty fun group hgroup => semicolon_not_mem (s.chars group hgroup)
  have hlast : s.text.getLast? = some 0x6d := by
    unfold SgrSequence.text sgrText
    exact getLast?_concat
  have hkept : (filterParams s.many 0 s.params ⟨[], false, false⟩).kept = s.kept :=
    filterParams_kept s.many 0 s.params ⟨[], false, false⟩
  have hmany : decide (s.params.length > 1) = s.many := rfl
  unfold stripSgrBackgroundSequence
  rw [if_neg (by rw [hlast]; exact fun h => h rfl)]
  dsimp only
  rw [SgrSequence.text, hsplit, hmany, hkept]
  cases hchanged : (filterParams s.many 0 s.params ⟨[], false, false⟩).changed with
  | false =>
    have hsame : s.kept = s.params := keptFrom_unchanged s.many s.params hchanged false
    rw [hsame]
    exact interpret_text T s.nonempty
      (fun group hgroup => semicolon_not_mem (s.chars group hgroup)) a
  | true =>
    by_cases hnil : s.kept = []
    · rw [if_neg (by decide), if_pos hnil, hnil]
      rfl
    · rw [if_neg (by decide), if_neg hnil]
      exact interpret_text T hnil (fun group hgroup => semicolon_not_mem_kept s hgroup) a

theorem head_digits (h : group.all isSgrChar) : ((group.splitOn colon).headD []).all isDigit := by
  induction group with
  | nil => rfl
  | cons c group ih =>
    rw [all_cons, Bool.and_eq_true] at h
    rw [splitOn_cons_eq_if_modifyHead]
    split
    · rfl
    next hcolon =>
    have hdigit : isDigit c = true := by
      obtain hd | hc := Bool.or_eq_true_iff.mp h.1
      · exact hd
      · rw [of_decide_eq_true hc] at hcolon
        exact absurd rfl hcolon
    have hrest := ih h.2
    cases hsplit : group.splitOn colon with
    | nil => exact absurd hsplit (splitOn_ne_nil colon group)
    | cons first =>
      rw [hsplit] at hrest
      show (c :: first).all isDigit = true
      rw [all_cons, hdigit]
      exact hrest

theorem codeOf_parse {value : Nat}
    (h : parseSgrCode ((group.splitOn colon).headD []) = some value) : codeOf group = value := by
  unfold parseSgrCode at h
  split at h
  · exact some.inj h
  · cases h

theorem codeOf_unparsed (hchars : group.all isSgrChar)
    (h : parseSgrCode ((group.splitOn colon).headD []) = none) :
    codeOf group = 0 ∨ 9007199254740991 < codeOf group := by
  unfold parseSgrCode at h
  split at h
  · cases h
  next hnot =>
  by_cases hnil : (group.splitOn colon).headD [] = []
  · left
    unfold codeOf
    rw [hnil]
    rfl
  · right
    by_contra hle
    exact hnot ⟨hnil, head_digits hchars, Nat.le_of_not_lt hle⟩

theorem keep_code (hchars : group.all isSgrChar) (h : reading many group = .keep) :
    ¬ IsBackground (codeOf group) ∧ (codeOf group = 7 → many = false) := by
  unfold reading at h
  cases hparse : parseSgrCode ((group.splitOn colon).headD []) with
  | none =>
    have hcode := codeOf_unparsed hchars hparse
    exact ⟨by omega, fun h7 => by omega⟩
  | some =>
    rw [hparse] at h
    dsimp only at h
    rw [codeOf_parse hparse]
    split_ifs at h with hbackground hdrop
    refine ⟨hbackground, fun h7 => ?_⟩
    cases many with
    | false => rfl
    | true => exact absurd ⟨h7, rfl⟩ hdrop

theorem background_code (h : reading many group = .background) : IsBackground (codeOf group) := by
  unfold reading at h
  cases hparse : parseSgrCode ((group.splitOn colon).headD []) with
  | none =>
    rw [hparse] at h
    cases h
  | some =>
    rw [hparse] at h
    dsimp only at h
    rw [codeOf_parse hparse]
    split_ifs at h with hbackground
    exact hbackground

theorem drop_code (h : reading many group = .drop) : codeOf group = 7 := by
  unfold reading at h
  cases hparse : parseSgrCode ((group.splitOn colon).headD []) with
  | none =>
    rw [hparse] at h
    cases h
  | some =>
    rw [hparse] at h
    dsimp only at h
    rw [codeOf_parse hparse]
    split_ifs at h with hbackground hdrop
    exact hdrop.1

/-! ## alignment -/

section
variable {κ ρ : Type} (T : SgrTerminal κ ρ)

/-- The loop and the terminal read the same groups.  `bare` says that the last group kept is a
colour without a mode, `reset` that the background has been reset. -/
def Aligned (many : Bool) : (skip : Nat) → (bare reset : Bool) → List JsString → Prop
  | _, _, _, [] => True
  | skip + 1, bare, reset, _ :: params => Aligned many skip bare reset params
  | 0, bare, reset, group :: params =>
    let count := taken T group params.head?
    match reading many group with
    | .keep =>
      -- the arguments are kept too, and no colour before the group takes it for its mode
      (bare = true → isMode group = false) ∧
        (∀ arg ∈ params.take count, reading many arg = .keep) ∧
        Aligned many count (isBareColour group && count = 0) reset params
    | .drop => Aligned many 0 bare reset params
    | .background =>
      params.drop (skipped group params.head?) = params.drop count ∧
        Aligned many count (bare && reset) true params

theorem aligned_skip (many : Bool) (skip : Nat) (bare reset : Bool) (params : List JsString) :
    Aligned T many skip bare reset params ↔ Aligned T many 0 bare reset (params.drop skip) := by
  induction params generalizing skip with
  | nil =>
    rw [drop_nil]
    cases skip <;> exact Iff.rfl
  | cons group params ih =>
    cases skip with
    | zero => rfl
    | succ skip => exact ih skip

theorem keptFrom_args {many : Bool} (reset : Bool) {params : List JsString} {count : Nat}
    (h : ∀ arg ∈ params.take count, reading many arg = .keep) :
    keptFrom many 0 reset params = params.take count ++ keptFrom many 0 reset (params.drop count) := by
  induction params generalizing count with
  | nil => rw [take_nil, drop_nil]; rfl
  | cons arg params ih =>
    cases count with
    | zero => rfl
    | succ =>
      rw [take_succ_cons, forall_mem_cons] at h
      rw [keptFrom, h.1, take_succ_cons, drop_succ_cons, cons_append, ← ih h.2]

theorem take_args (many reset : Bool) (params : List JsString) (count : Nat) :
    (params.take count ++ keptFrom many 0 reset (params.drop count)).take count = params.take count ∧
      (params.take count ++ keptFrom many 0 reset (params.drop count)).drop count =
        keptFrom many 0 reset (params.drop count) := by
  by_cases hlen : count ≤ params.length
  · have hcount : (params.take count).length = count := by
      rw [length_take]
      omega
    constructor
    · exact take_left' hcount
    · exact drop_left' hcount
  · rw [drop_eq_nil_of_le (by omega), keptFrom_nil, append_nil, take_take, Nat.min_self]
    refine ⟨rfl, ?_⟩
    apply drop_eq_nil_of_le
    rw [length_take]
    omega

theorem taken_closed (h : isBareColour group = false) (next next' : Option JsString) :
    taken T group next = taken T group next' := by
  unfold taken
  split
  · next hcode =>
    have hclosed : ¬ (group.splitOn colon).length ≤ 1 := by
      intro hlen
      unfold isBareColour at h
      simp only [Bool.and_eq_false_iff, Bool.or_eq_false_iff, decide_eq_false_iff_not] at h
      omega
    rw [if_neg hclosed, if_neg hclosed]
  · rfl

theorem taken_bare (h : isBareColour group = true) {next : Option JsString}
    (hnext : ∀ mode ∈ next, isMode mode = false) : taken T group next = 0 := by
  unfold isBareColour at h
  simp only [Bool.and_eq_true, Bool.or_eq_true, decide_eq_true_eq] at h
  unfold taken
  rw [if_pos h.1, if_pos h.2]
  cases next with
  | none => rfl
  | some mode =>
    have hmode := hnext mode rfl
    unfold isMode at hmode
    simp only [Bool.or_eq_false_iff, decide_eq_false_iff_not] at hmode
    dsimp only
    rw [if_neg hmode.1, if_neg hmode.2]

theorem taken_other (h : codeOf group ≠ 38 ∧ codeOf group ≠ 48) (next : Option JsString) :
    taken T group next = 0 := by
  unfold taken
  apply if_neg
  rw [not_or]
  exact h

theorem taken_kept {params rest : List JsString}
    (h : (isBareColour group && taken T group params.head? = 0) = true →
      ∀ mode ∈ rest.head?, isMode mode = false) :
    taken T group (params.take (taken T group params.head?) ++ rest).head? =
      taken T group params.head? := by
  cases hbare : isBareColour group with
  | false => exact taken_closed T hbare _ _
  | true =>
    by_cases hzero : taken T group params.head? = 0
    · rw [hzero, take_zero, nil_append]
      refine taken_bare T hbare (h ?_)
      rw [hbare, hzero]
      rfl
    cases params with
    | nil =>
      have hnone : taken T group none = 0 := taken_bare T hbare nofun
      exact absurd hnone hzero
    | cons =>
      obtain ⟨count, hcount⟩ := Nat.exists_eq_succ_of_ne_zero hzero
      rw [hcount, take_succ_cons, ← hcount]
      rfl

theorem shows_background (args : List JsString) (h : IsBackground (codeOf group)) :
    shows (group, args) = false :=
  decide_eq_false fun hshows => hshows.1 h

/-- **The kept groups are read as the tokens they were.** -/
theorem tokens_kept {many : Bool} (n : Nat) {bare reset : Bool} {params : List JsString}
    (hn : params.length ≤ n) (h : Aligned T many 0 bare reset params) :
    (tokens T 0 (keptFrom many 0 reset params)).filter shows = (tokens T 0 params).filter shows ∧
      (bare = true → ∀ mode ∈ (keptFrom many 0 reset params).head?, isMode mode = false) := by
  induction n generalizing bare reset params with
  | zero =>
    obtain rfl := length_eq_zero_iff.mp (Nat.le_zero.mp hn)
    exact ⟨rfl, nofun⟩
  | succ n ih =>
    cases params with
    | nil => exact ⟨rfl, nofun⟩
    | cons group params =>
      rw [length_cons] at hn
      have hdrop : ∀ count, (params.drop count).length ≤ n := by
        intro count
        rw [length_drop]
        omega
      rw [Aligned] at h
      rw [tokens_cons]
      cases hreading : reading many group with
      | keep =>
        rw [hreading] at h
        obtain ⟨hmode, hargs, hrest⟩ := h
        rw [aligned_skip] at hrest
        obtain ⟨htokens, hhead⟩ := ih (hdrop _) hrest
        have hkept : keptFrom many 0 reset (group :: params) =
            group :: (params.take (taken T group params.head?) ++
              keptFrom many 0 reset (params.drop (taken T group params.head?))) := by
          rw [keptFrom, hreading, ← keptFrom_args reset hargs]
        have htake := take_args many reset params (taken T group params.head?)
        rw [hkept]
        refine ⟨?_, ?_⟩
        · rw [tokens_cons, taken_kept T hhead, htake.1, htake.2, filter_cons, filter_cons, htokens]
        · intro hbare mode hmem
          cases hmem
          exact hmode hbare
      | drop =>
        rw [hreading] at h
        obtain ⟨htokens, hhead⟩ := ih (by omega) h
        have hcode := drop_code hreading
        have hzero : taken T group params.head? = 0 := taken_other T (by omega) _
        have hhidden : shows (group, params.take 0) = false :=
          decide_eq_false fun hshows => hshows.2 hcode
        rw [keptFrom, hreading, hzero, filter_cons_of_neg (by rw [hhidden]; decide)]
        exact ⟨htokens, hhead⟩
      | background =>
        rw [hreading] at h
        obtain ⟨hsame, hrest⟩ := h
        rw [aligned_skip] at hrest
        obtain ⟨htokens, hhead⟩ := ih (hdrop _) hrest
        have hhidden := shows_background (params.take (taken T group params.head?))
          (background_code hreading)
        rw [keptFrom, hreading, filter_cons_of_neg (by rw [hhidden]; decide)]
        dsimp only
        rw [keptFrom_skip, hsame]
        cases reset with
        | true =>
          rw [Bool.and_true] at hhead
          exact ⟨htokens, hhead⟩
        | false =>
          have hreset : taken T backgroundReset
              (keptFrom many 0 true (params.drop (taken T group params.head?))).head? = 0 :=
            taken_other T (by decide) _
          refine ⟨?_, ?_⟩
          · show (tokens T 0 (backgroundReset ::
              keptFrom many 0 true (params.drop (taken T group params.head?)))).filter shows = _
            rw [tokens_cons, hreset,
              filter_cons_of_neg (by rw [shows_background _ (by decide)]; decide)]
            exact htokens
          · intro _ mode hmem
            cases hmem
            decide

/-- what stripping should do to a sequence -/
structure OnlyBackground (s : SgrSequence) (a : Attributes κ ρ) : Prop where
  foreground : (interpret T (stripSgrBackgroundSequence s.text) a).foreground =
    (interpret T s.text a).foreground
  style : (interpret T (stripSgrBackgroundSequence s.text) a).style = (interpret T s.text a).style
  background : (interpret T (stripSgrBackgroundSequence s.text) a).background = a.background ∨
    (interpret T (stripSgrBackgroundSequence s.text) a).background = T.defaultColour

/-- **No stripped sequence enables a background.** -/
theorem strip_background (s : SgrSequence) (a : Attributes κ ρ) :
    (interpret T (stripSgrBackgroundSequence s.text) a).background = a.background ∨
      (interpret T (stripSgrBackgroundSequence s.text) a).background = T.defaultColour := by
  rw [interpret_strip]
  apply interpret_background
  intro group hgroup
  obtain rfl | ⟨hmem, hkeep⟩ := mem_keptFrom hgroup
  · exact .inl (by decide)
  · exact .inr (keep_code (s.chars group hmem) hkeep).1

/-- **A sequence that the loop and the terminal read alike loses its background only.** -/
theorem strip_onlyBackground (s : SgrSequence) (h : Aligned T s.many 0 false false s.params)
    (a : Attributes κ ρ) : OnlyBackground T s a := by
  have htext : interpret T s.text a = interpretParams T s.params a :=
    interpret_text T s.nonempty (fun group hgroup => semicolon_not_mem (s.chars group hgroup)) a
  have htokens := (tokens_kept T s.params.length (Nat.le_refl _) h).1
  have hkept := interpret_shown T htokens a
  have hstrip := interpret_strip T s a
  obtain ⟨hforeground, hstyle⟩ := Prod.mk.inj hkept
  refine ⟨?_, ?_, strip_background T s a⟩
  · rw [hstrip, htext]
    exact hforeground
  · rw [hstrip, htext]
    exact hstyle

end

/-! ## a terminal -/

inductive Colour where
  | default
  | basic (n : Nat)
  | palette (n : Nat)
  | rgb (r g b : Nat)
deriving DecidableEq

structure Style where
  bold : Bool
  faint : Bool
  italic : Bool
  underline : Bool
  blink : Bool
  invisible : Bool
  strikethrough : Bool

/-- the colour of a group, from its own arguments or from those behind it -/
def standardColour (group : JsString) (args : List JsString) : Option Colour :=
  let subs := (group.splitOn colon).drop 1
  match (if subs = [] then args else subs).map codeOf with
  | [5, n] => some (.palette n)
  | [2, r, g, b] => some (.rgb r g b)
  | [2, _, r, g, b] => some (.rgb r g b)
  | _ => none

def standardStyle (group : JsString) (s : Style) : Style :=
  match codeOf group with
  | 1 => { s with bold := true }
  | 2 => { s with faint := true }
  | 3 => { s with italic := true }
  | 4 => { s with underline := true }
  | 5 => { s with blink := true }
  | 8 => { s with invisible := true }
  | 9 => { s with strikethrough := true }
  | 22 => { s with bold := false, faint := false }
  | 23 => { s with italic := false }
  | 24 => { s with underline := false }
  | 25 => { s with blink := false }
  | 28 => { s with invisible := false }
  | 29 => { s with strikethrough := false }
  | _ => s

def standardTerminal : SgrTerminal Colour Style where
  defaultColour := .default
  basicColour := .basic
  extendedColour := standardColour
  mixed _ := 0
  plainStyle := ⟨false, false, false, false, false, false, false⟩
  style := standardStyle

def plainAttributes : Attributes Colour Style :=
  ⟨.default, .default, false, standardTerminal.plainStyle⟩

/-- `1;48;2;29;37;55;31` -/
def boldOnBlue : SgrSequence where
  params := ["1", "48", "2", "29", "37", "55", "31"].map JsString.ofString
  nonempty := List.cons_ne_nil _ _
  chars := by decide

theorem boldOnBlue_stripped : OnlyBackground standardTerminal boldOnBlue plainAttributes := by
  refine strip_onlyBackground standardTerminal boldOnBlue ?_ plainAttributes
  exact ⟨fun h => (by cases h), fun _ h => (by cases h), rfl, fun h => (by cases h),
    fun _ h => (by cases h), trivial⟩

def turquoise : SgrSequence where
  params := ["38", "5", "44"].map JsString.ofString
  nonempty := List.cons_ne_nil _ _
  chars := by decide

theorem turquoise_changed : ¬ ∀ (s : SgrSequence) (a : Attributes Colour Style),
    OnlyBackground standardTerminal s a := by
  intro h
  exact absurd (h turquoise plainAttributes).foreground (by decide)

end CcPanes.Sgr

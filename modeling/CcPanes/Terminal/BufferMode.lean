import CcPanes.Foundation.LastMatch
import CcPanes.Terminal.ReplayBuffer
import Mathlib.Data.List.Induction

/-!
# What the scan for the alternate screen reads

`update_buffer_mode` looks at one chunk at a time and keeps nothing between chunks.  In a chunk it
reads `ESC [ ?`, digits and one more byte; the byte is gone even if it is the `ESC` of the next
sequence.  So a switch of the screen is read if it is whole in its chunk, its code is its only
parameter, and it does not stand directly after a head that was read.

* `bufferMode_iff`, `bufferMode_follows`  it follows the stream just if the last switch that is
  read, or none, says what the last switch of the stream says.
-/

namespace CcPanes
open List

variable {mode : TerminalBufferMode} {pre rest : Bytes} {action : UInt8}

/-! ## switches -/

/-- `ESC [ ?` and the parameters -/
def modeHead (params : Bytes) : Bytes := 0x1b :: 0x5b :: 0x3f :: params

def modeAction : TerminalBufferMode → UInt8
  | .alternate => 0x68
  | .normal => 0x6c

def isParamByte (b : UInt8) : Bool := isAsciiDigit b || b = 0x3b

/-- a private mode sequence that switches the screen -/
def Switch (mode : TerminalBufferMode) (s : Bytes) : Prop :=
  ∃ params, s = modeHead params ++ [modeAction mode] ∧ params.all isParamByte = true ∧
    (params.splitOn 0x3b).any isAltScreenCode = true

def SingleSwitch (mode : TerminalBufferMode) (s : Bytes) : Prop :=
  ∃ code, s = modeHead code ++ [modeAction mode] ∧ isAltScreenCode code = true

def SwitchAt (stream : Bytes) (p : Nat) (mode : TerminalBufferMode) : Prop :=
  ∃ pre s post, stream = pre ++ (s ++ post) ∧ pre.length = p ∧ Switch mode s

/-- the bytes end in a head that is read, and the byte after it goes with it -/
def Swallowed (pre : Bytes) : Prop :=
  ∃ x digits, ∃ _ : pre = x ++ modeHead digits,
    digits.all isAsciiDigit = true ∧ ¬Swallowed x
termination_by pre.length
decreasing_by
  subst_vars
  simp [modeHead]

def ReadIn (chunk : Bytes) (p : Nat) (mode : TerminalBufferMode) : Prop :=
  ∃ pre s post, chunk = pre ++ (s ++ post) ∧ pre.length = p ∧ SingleSwitch mode s ∧ ¬Swallowed pre

/-- the switches that the chunks let the scan read, at their positions in the stream -/
def ReadAt (chunks : List Bytes) (p : Nat) (mode : TerminalBufferMode) : Prop :=
  ∃ before chunk after q, chunks = before ++ chunk :: after ∧ ReadIn chunk q mode ∧
    p = before.flatten.length + q

theorem swallowed_iff (pre : Bytes) : Swallowed pre ↔ ∃ x digits, pre = x ++ modeHead digits ∧
    digits.all isAsciiDigit = true ∧ ¬Swallowed x := by
  rw [Swallowed.eq_def]
  constructor
  · intro h
    obtain ⟨x, digits, hpre, hdigits, hx⟩ := h
    exact ⟨x, digits, hpre, hdigits, hx⟩
  · intro h
    obtain ⟨x, digits, hpre, hdigits, hx⟩ := h
    exact ⟨x, digits, hpre, hdigits, hx⟩

theorem isAltScreenCode_cases {code : Bytes} (h : isAltScreenCode code = true) :
    code = [0x34, 0x37] ∨ code = [0x31, 0x30, 0x34, 0x37] ∨ code = [0x31, 0x30, 0x34, 0x39] := by
  simpa [isAltScreenCode, or_assoc] using h

theorem digits_of_code {code : Bytes} (h : isAltScreenCode code = true) :
    code.all isAsciiDigit = true := by
  rcases isAltScreenCode_cases h with rfl | rfl | rfl <;> decide

theorem SingleSwitch.switch {s : Bytes} (h : SingleSwitch mode s) : Switch mode s := by
  obtain ⟨code, hs, hcode⟩ := h
  refine ⟨code, hs, ?_, ?_⟩
  · rcases isAltScreenCode_cases hcode with rfl | rfl | rfl <;> decide
  · rcases isAltScreenCode_cases hcode with rfl | rfl | rfl <;> decide

theorem modeAction_not_param (mode : TerminalBufferMode) :
    isParamByte (modeAction mode) = false := by
  cases mode <;> decide

theorem modeAction_not_digit (mode : TerminalBufferMode) :
    isAsciiDigit (modeAction mode) = false := by
  cases mode <;> decide

theorem modeAction_inj {mode mode' : TerminalBufferMode} (h : modeAction mode = modeAction mode') :
    mode = mode' := by
  cases mode <;> cases mode' <;> first | rfl | cases h

theorem append_cons_inj {f : UInt8 → Bool} {d d' : Bytes} {b b' : UInt8} {t t' : Bytes}
    (hd : d.all f = true) (hd' : d'.all f = true) (hb : f b = false) (hb' : f b' = false)
    (h : d ++ b :: t = d' ++ b' :: t') : d = d' ∧ b = b' ∧ t = t' := by
  induction d generalizing d' with
  | nil =>
    cases d' with
    | nil =>
      obtain ⟨e, et⟩ := cons.inj h
      exact ⟨rfl, e, et⟩
    | cons =>
      obtain ⟨e, -⟩ := cons.inj h
      rw [all_cons, Bool.and_eq_true] at hd'
      rw [← e, hb] at hd'
      cases hd'.1
  | cons c d ih =>
    rw [all_cons, Bool.and_eq_true] at hd
    cases d' with
    | nil =>
      obtain ⟨e, -⟩ := cons.inj h
      rw [e, hb'] at hd
      cases hd.1
    | cons =>
      rw [all_cons, Bool.and_eq_true] at hd'
      obtain ⟨e, et⟩ := cons.inj h
      obtain ⟨e₁, e₂, e₃⟩ := ih hd.2 hd'.2 et
      exact ⟨by rw [e, e₁], e₂, e₃⟩

theorem switchAt_oneValue (stream : Bytes) : OneValue (SwitchAt stream) := by
  intro p mode mode' h h'
  obtain ⟨pre, s, post, hstream, hp, params, hs, hparams, -⟩ := h
  obtain ⟨pre', s', post', hstream', hp', params', hs', hparams', -⟩ := h'
  have e : s ++ post = s' ++ post' :=
    (append_inj (hstream.symm.trans hstream') (hp.trans hp'.symm)).2
  rw [hs, hs'] at e
  have e' : params ++ modeAction mode :: post = params' ++ modeAction mode' :: post' := by
    simpa [modeHead] using e
  exact modeAction_inj (append_cons_inj hparams hparams' (modeAction_not_param mode)
    (modeAction_not_param mode') e').2.1

theorem ReadAt.switchAt {chunks : List Bytes} {p : Nat} (h : ReadAt chunks p mode) :
    SwitchAt chunks.flatten p mode := by
  obtain ⟨before, chunk, after, q, hchunks, hread, hp⟩ := h
  obtain ⟨pre, s, post, hchunk, hq, hs, -⟩ := hread
  refine ⟨before.flatten ++ pre, s, post ++ after.flatten, ?_, ?_, hs.switch⟩
  · rw [hchunks, hchunk]
    simp
  · rw [hp, ← hq, length_append]

theorem readAt_oneValue (chunks : List Bytes) : OneValue (ReadAt chunks) :=
  fun p mode mode' h h' => switchAt_oneValue _ p mode mode' h.switchAt h'.switchAt

/-! ## the scan of a chunk -/

theorem readIn_iff (chunk : Bytes) (p : Nat) (mode : TerminalBufferMode) :
    ReadIn chunk p mode ↔ p ≤ chunk.length ∧ ¬Swallowed (chunk.take p) ∧
      ∃ code post, chunk.drop p = modeHead code ++ modeAction mode :: post ∧
        isAltScreenCode code = true := by
  constructor
  · intro h
    obtain ⟨pre, s, post, rfl, rfl, hs, hpre⟩ := h
    obtain ⟨code, rfl, hcode⟩ := hs
    refine ⟨?_, ?_, code, post, ?_, hcode⟩
    · simp
    · rw [take_left]
      exact hpre
    · rw [drop_left]
      simp
  · intro h
    obtain ⟨hp, hpre, code, post, hdrop, hcode⟩ := h
    refine ⟨chunk.take p, modeHead code ++ [modeAction mode], post, ?_, ?_, ⟨code, rfl, hcode⟩,
      hpre⟩
    · rw [append_assoc, singleton_append, ← hdrop, take_append_drop]
    · exact length_take_of_le hp

/-- no head that is read before the end of `pre` reaches into `rest` -/
def HeadsEnd (pre rest : Bytes) : Prop :=
  ∀ x y digits z, pre = x ++ y → y ≠ [] → ¬Swallowed x → digits.all isAsciiDigit = true →
    y ++ rest = modeHead digits ++ z → (modeHead digits).length < y.length

theorem HeadsEnd.not_swallowed (h : HeadsEnd pre rest) : ¬Swallowed pre := by
  intro hpre
  obtain ⟨x, digits, e, hdigits, hx⟩ := (swallowed_iff pre).mp hpre
  have hne : modeHead digits ≠ [] := by simp [modeHead]
  exact Nat.lt_irrefl _ (h x (modeHead digits) digits rest e hne hx hdigits rfl)

theorem headsEnd_nil (rest : Bytes) : HeadsEnd [] rest := by
  intro x y digits z e hne
  obtain ⟨-, hy⟩ := append_eq_nil_iff.mp e.symm
  exact absurd hy hne

theorem HeadsEnd.snoc {b : UInt8} (h : HeadsEnd pre (b :: rest))
    (hb : ¬(b = 0x1b ∧ rest.take 2 = [0x5b, 0x3f])) : HeadsEnd (pre ++ [b]) rest := by
  intro x y digits z e hne hx hdigits hy
  obtain ⟨y₀, c, rfl⟩ : ∃ y₀ c, y = y₀ ++ [c] :=
    ⟨y.dropLast, y.getLast hne, (dropLast_concat_getLast hne).symm⟩
  rw [← append_assoc] at e
  obtain ⟨e₀, ec⟩ := append_inj' e rfl
  obtain rfl : b = c := (cons.inj ec).1
  rw [append_assoc, singleton_append] at hy
  by_cases hy₀ : y₀ = []
  · subst hy₀
    refine absurd ?_ hb
    obtain ⟨eb, erest⟩ := cons.inj hy
    refine ⟨eb, ?_⟩
    rw [erest]
    rfl
  · have hlt := h x y₀ digits z e₀ hy₀ hx hdigits hy
    rw [length_append]
    omega

theorem HeadsEnd.head {pre digits post : Bytes}
    (h : HeadsEnd pre (modeHead digits ++ action :: post))
    (hdigits : digits.all isAsciiDigit = true) (haction : isAsciiDigit action = false) :
    HeadsEnd (pre ++ (modeHead digits ++ [action])) post := by
  have hpre := h.not_swallowed
  intro x y d z e hne hx hd hy
  have hlen : (modeHead digits).length = digits.length + 3 := rfl
  have hlen' : (modeHead d).length = d.length + 3 := rfl
  rcases Nat.lt_trichotomy x.length pre.length with hlt | heq | hgt
  · -- the head began before
    obtain ⟨y₀, rfl⟩ : ∃ y₀, pre = x ++ y₀ := by
      have hx : x <+: pre := prefix_of_prefix_length_le ⟨y, e.symm⟩ (prefix_append _ _)
        (Nat.le_of_lt hlt)
      obtain ⟨y₀, hy₀⟩ := hx
      exact ⟨y₀, hy₀.symm⟩
    have hy₀ : y₀ ≠ [] := by
      intro hnil
      subst hnil
      simp at hlt
    rw [append_assoc] at e
    have ey := append_cancel_left e
    have hlt := h x y₀ d z rfl hy₀ hx hd (by rw [← hy, ← ey]; simp)
    rw [← ey, length_append]
    omega
  · -- it is this one
    obtain ⟨rfl, ey⟩ := append_inj e heq.symm
    subst ey
    have hsame : digits ++ action :: post = d ++ z := by simpa [modeHead] using hy
    have hle : d.length ≤ digits.length := by
      by_contra hgt
      have haction' : action ∈ d := by
        have hget : (d ++ z)[digits.length]? = some action := by
          rw [← hsame]
          simp
        rw [getElem?_append_left (by omega)] at hget
        exact mem_of_getElem? hget
      have hdigit := all_eq_true.mp hd action haction'
      rw [haction] at hdigit
      cases hdigit
    rw [length_append, hlen, hlen']
    show d.length + 3 < digits.length + 3 + 1
    omega
  -- it begins after this one began, where only the last byte can be `ESC`
  obtain ⟨k, hk⟩ : ∃ k, x.length = pre.length + k := ⟨x.length - pre.length, by omega⟩
  have ex : x = pre ++ (modeHead digits ++ [action]).take k := by
    have htake := congrArg (take x.length) e
    rw [take_left, hk, take_length_add_append] at htake
    exact htake.symm
  have ey : y = (modeHead digits ++ [action]).drop k := by
    have hdrop := congrArg (drop x.length) e
    rw [drop_left, hk, drop_length_add_append] at hdrop
    exact hdrop.symm
  have hklt : k < digits.length + 4 := by
    by_contra hge
    refine hne ?_
    rw [ey]
    refine drop_eq_nil_of_le ?_
    rw [length_append, hlen]
    show digits.length + 3 + 1 ≤ k
    omega
  have hesc : (modeHead digits ++ [action])[k]? = some 0x1b := by
    have hhead : (y ++ post)[0]? = some 0x1b := by
      rw [hy]
      rfl
    have hpos : 0 < y.length := length_pos_iff.mpr hne
    rw [getElem?_append_left hpos, ey, getElem?_drop] at hhead
    exact hhead
  have hk' : k = digits.length + 3 := by
    match k, hk with
    | 0, hk => omega
    | 1, _ => cases hesc
    | 2, _ => cases hesc
    | k + 3, _ =>
      by_contra hne'
      have hget : digits[k]? = some 0x1b := by
        have hget' : (digits ++ [action])[k]? = some 0x1b := hesc
        rwa [getElem?_append_left (by omega)] at hget'
      have hdigit := all_eq_true.mp hdigits _ (mem_of_getElem? hget)
      cases hdigit
  refine absurd ?_ hx
  refine (swallowed_iff x).mpr ⟨pre, digits, ?_, hdigits, hpre⟩
  rw [ex, hk']
  congr 1
  exact take_left' hlen

def ReadFrom (pre rest : Bytes) (p : Nat) (mode : TerminalBufferMode) : Prop :=
  pre.length ≤ p ∧ ReadIn (pre ++ rest) p mode

theorem readFrom_here (pre rest : Bytes) (mode : TerminalBufferMode) :
    ReadFrom pre rest pre.length mode ↔ ¬Swallowed pre ∧
      ∃ code post, rest = modeHead code ++ modeAction mode :: post ∧
        isAltScreenCode code = true := by
  rw [ReadFrom, readIn_iff, take_left, drop_left]
  constructor
  · intro h
    exact h.2.2
  · intro h
    exact ⟨Nat.le_refl _, by simp, h⟩

theorem not_readFrom_short (h : rest.length < 6) (p : Nat) (mode : TerminalBufferMode) :
    ¬ReadFrom pre rest p mode := by
  intro hread
  obtain ⟨hp, hread⟩ := hread
  obtain ⟨-, -, code, post, hdrop, hcode⟩ := (readIn_iff _ _ _).mp hread
  have hlen := congrArg length hdrop
  have hcode' : 2 ≤ code.length := by
    rcases isAltScreenCode_cases hcode with rfl | rfl | rfl <;> decide
  rw [length_drop, length_append, length_append, length_cons] at hlen
  have hhead : (modeHead code).length = code.length + 3 := rfl
  omega

theorem readFrom_snoc {b : UInt8} {p : Nat} :
    ReadFrom (pre ++ [b]) rest p mode ↔ ReadFrom pre (b :: rest) p mode ∧ p ≠ pre.length := by
  rw [ReadFrom, ReadFrom, append_assoc, singleton_append, length_append]
  constructor
  · intro h
    obtain ⟨hp, hread⟩ := h
    have hp' : pre.length + 1 ≤ p := hp
    exact ⟨⟨by omega, hread⟩, by omega⟩
  intro h
  obtain ⟨⟨hp, hread⟩, hne⟩ := h
  refine ⟨?_, hread⟩
  show pre.length + 1 ≤ p
  omega

theorem readFrom_head {pre digits post : Bytes} (hpre : ¬Swallowed pre)
    (hdigits : digits.all isAsciiDigit = true) {p : Nat} :
    ReadFrom (pre ++ (modeHead digits ++ [action])) post p mode ↔
      ReadFrom pre (modeHead digits ++ action :: post) p mode ∧ p ≠ pre.length := by
  have hlen : (pre ++ (modeHead digits ++ [action])).length = pre.length + (digits.length + 4) := by
    rw [length_append, length_append]
    rfl
  have e : pre ++ (modeHead digits ++ [action]) ++ post =
      pre ++ (modeHead digits ++ action :: post) := by simp
  rw [ReadFrom, ReadFrom, hlen, e]
  constructor
  · intro h
    exact ⟨⟨by omega, h.2⟩, by omega⟩
  intro h
  obtain ⟨⟨hp, hread⟩, hne⟩ := h
  refine ⟨?_, hread⟩
  by_contra hlt
  obtain ⟨k, hk⟩ : ∃ k, p = pre.length + k := ⟨p - pre.length, by omega⟩
  obtain ⟨-, hfree, code, post', hdrop, -⟩ := (readIn_iff _ _ _).mp hread
  have hesc : (modeHead digits ++ action :: post)[k]? = some 0x1b := by
    have hhead := congrArg (fun l => l[0]?) hdrop
    rw [hk, drop_length_add_append] at hhead
    simpa [modeHead] using hhead
  have hk' : k = digits.length + 3 := by
    match k, hk with
    | 0, hk => omega
    | 1, _ => cases hesc
    | 2, _ => cases hesc
    | k + 3, _ =>
      by_contra hne'
      have hget : digits[k]? = some 0x1b := by
        have hget' : (digits ++ action :: post)[k]? = some 0x1b := hesc
        rwa [getElem?_append_left (by omega)] at hget'
      have hdigit := all_eq_true.mp hdigits _ (mem_of_getElem? hget)
      cases hdigit
  refine hfree ((swallowed_iff _).mpr ⟨pre, digits, ?_, hdigits, hpre⟩)
  rw [hk, hk', take_length_add_append]
  congr 1
  exact take_left' rfl

def modeAfter (mode : TerminalBufferMode) (code : Bytes) (action : UInt8) : TerminalBufferMode :=
  if isAltScreenCode code then
    if action = 0x68 then .alternate else if action = 0x6c then .normal else mode
  else mode

theorem scan_skip (skip : Nat) (mode : TerminalBufferMode) (l : Bytes) :
    scanBufferMode skip mode l = scanBufferMode 0 mode (l.drop skip) := by
  induction l generalizing skip with
  | nil => cases skip <;> simp [scanBufferMode]
  | cons b l ih =>
    cases skip with
    | zero => rfl
    | succ skip =>
      rw [scanBufferMode, drop_succ_cons]
      exact ih skip

theorem scan_head (mode : TerminalBufferMode) {digits post : Bytes}
    (hdigits : digits.all isAsciiDigit = true) (haction : isAsciiDigit action = false)
    (hlong : 5 ≤ (modeHead digits ++ action :: post).length) :
    scanBufferMode 0 mode (modeHead digits ++ action :: post) =
      scanBufferMode 0 (modeAfter mode digits action) post := by
  have htake : (digits ++ action :: post).takeWhile isAsciiDigit = digits := by
    rw [takeWhile_append_of_pos (all_eq_true.mp hdigits), takeWhile_cons_of_neg]
    · simp
    · simp [haction]
  have hdrop : (digits ++ action :: post).dropWhile isAsciiDigit = action :: post := by
    rw [dropWhile_append_of_pos (all_eq_true.mp hdigits), dropWhile_cons_of_neg]
    simp [haction]
  have hlong' : ¬(0x5b :: 0x3f :: (digits ++ action :: post)).length < 4 := by
    have hlong' : 5 ≤ (digits ++ action :: post).length + 3 := hlong
    simp only [length_cons]
    omega
  show scanBufferMode 0 mode (0x1b :: 0x5b :: 0x3f :: (digits ++ action :: post)) = _
  rw [scanBufferMode, if_neg hlong', if_pos ⟨rfl, rfl⟩]
  simp only [drop_succ_cons, drop_zero, htake, hdrop]
  rw [scan_skip]
  show scanBufferMode 0 (modeAfter mode digits action)
    ((digits ++ action :: post).drop (digits.length + 1)) = _
  rw [drop_length_add_append]
  rfl

theorem scan_open_head (mode : TerminalBufferMode) {digits : Bytes}
    (hdigits : digits.all isAsciiDigit = true) :
    scanBufferMode 0 mode (modeHead digits) = mode := by
  have hdrop : digits.dropWhile isAsciiDigit = [] := by
    have happend : (digits ++ []).dropWhile isAsciiDigit = ([] : Bytes).dropWhile isAsciiDigit :=
      dropWhile_append_of_pos (all_eq_true.mp hdigits)
    simpa using happend
  rw [modeHead, scanBufferMode]
  by_cases hshort : (0x5b :: 0x3f :: digits).length < 4
  · rw [if_pos hshort]
  · rw [if_neg hshort, if_pos ⟨rfl, rfl⟩]
    simp only [drop_succ_cons, drop_zero, hdrop]

theorem readFrom_open_head (pre : Bytes) {digits : Bytes} (hdigits : digits.all isAsciiDigit = true)
    (p : Nat) (mode : TerminalBufferMode) : ¬ReadFrom pre (modeHead digits) p mode := by
  intro h
  obtain ⟨hp, hread⟩ := h
  obtain ⟨-, -, code, post, hdrop, hcode⟩ := (readIn_iff _ _ _).mp hread
  obtain ⟨k, hk⟩ : ∃ k, p = pre.length + k := ⟨p - pre.length, by omega⟩
  rw [hk, drop_length_add_append] at hdrop
  have hmem : modeAction mode ∈ digits := by
    match k with
    | 0 =>
      have e : digits = code ++ modeAction mode :: post := by simpa [modeHead] using hdrop
      rw [e]
      simp
    | 1 => cases hdrop
    | 2 => cases hdrop
    | k + 3 =>
      have e : digits.drop k = modeHead code ++ modeAction mode :: post := hdrop
      refine mem_of_mem_drop (i := k) ?_
      rw [e]
      simp
  have hdigit := all_eq_true.mp hdigits _ hmem
  rw [modeAction_not_digit] at hdigit
  cases hdigit

theorem modeAfter_cases (mode : TerminalBufferMode) (code : Bytes) (action : UInt8) :
    (∃ mode', isAltScreenCode code = true ∧ action = modeAction mode' ∧
      modeAfter mode code action = mode') ∨
    (¬∃ mode', isAltScreenCode code = true ∧ action = modeAction mode') ∧
      modeAfter mode code action = mode := by
  unfold modeAfter
  by_cases hcode : isAltScreenCode code = true
  · rw [if_pos hcode]
    by_cases hset : action = 0x68
    · rw [if_pos hset]
      exact .inl ⟨.alternate, hcode, hset, rfl⟩
    rw [if_neg hset]
    by_cases hreset : action = 0x6c
    · rw [if_pos hreset]
      exact .inl ⟨.normal, hcode, hreset, rfl⟩
    rw [if_neg hreset]
    refine .inr ⟨?_, rfl⟩
    intro h
    obtain ⟨mode', -, haction⟩ := h
    cases mode' with
    | alternate => exact hset haction
    | normal => exact hreset haction
  · rw [if_neg hcode]
    refine .inr ⟨?_, rfl⟩
    intro h
    obtain ⟨mode', hcode', -⟩ := h
    exact hcode hcode'

theorem scan_from (n : Nat) : ∀ pre rest mode, rest.length ≤ n → HeadsEnd pre rest →
    Latest (ReadFrom pre rest) mode (scanBufferMode 0 mode rest) := by
  induction n with
  | zero =>
    intro pre rest mode hn _
    obtain rfl := eq_nil_of_length_eq_zero (Nat.le_zero.mp hn)
    rw [scanBufferMode]
    exact .none (not_readFrom_short (by decide))
  | succ n ih =>
    intro pre rest mode hn hclear
    have hpre := hclear.not_swallowed
    cases rest with
    | nil =>
      rw [scanBufferMode]
      exact .none (not_readFrom_short (by decide))
    | cons b rest =>
      by_cases hshort : rest.length < 4
      · rw [scanBufferMode, if_pos hshort]
        exact .none (not_readFrom_short (by rw [length_cons]; omega))
      by_cases hhead : b = 0x1b ∧ rest.take 2 = [0x5b, 0x3f]
      · obtain ⟨rfl, htake⟩ := hhead
        obtain ⟨tail, rfl⟩ : ∃ tail, rest = 0x5b :: 0x3f :: tail := by
          refine ⟨rest.drop 2, ?_⟩
          rw [← take_append_drop 2 rest, htake]
          rfl
        have hdigits := all_takeWhile (p := isAsciiDigit) (l := tail)
        have htail := (takeWhile_append_dropWhile (p := isAsciiDigit) (l := tail)).symm
        generalize tail.takeWhile isAsciiDigit = digits at hdigits htail
        cases hrest : tail.dropWhile isAsciiDigit with
        | nil =>
          rw [hrest, append_nil] at htail
          subst htail
          show Latest (ReadFrom pre (modeHead tail)) mode (scanBufferMode 0 mode (modeHead tail))
          rw [scan_open_head mode hdigits]
          exact .none (readFrom_open_head pre hdigits)
        | cons action post =>
          have haction : isAsciiDigit action = false := by
            have hhead := head?_dropWhile_not (p := isAsciiDigit) (l := tail)
            rw [hrest] at hhead
            simpa using hhead
          rw [hrest] at htail
          subst htail
          show Latest (ReadFrom pre (modeHead digits ++ action :: post)) mode
            (scanBufferMode 0 mode (modeHead digits ++ action :: post))
          have hclear' : HeadsEnd pre (modeHead digits ++ action :: post) := hclear
          have hn' : (modeHead digits ++ action :: post).length ≤ n + 1 := hn
          have hlong : 5 ≤ (modeHead digits ++ action :: post).length := by
            have hlen : (modeHead digits ++ action :: post).length =
              (digits ++ action :: post).length + 3 := rfl
            rw [length_cons, length_cons] at hshort
            omega
          rw [scan_head mode hdigits haction hlong]
          have hpost : post.length ≤ n := by
            rw [length_append, length_cons] at hn'
            omega
          have hrest := ih (pre ++ (modeHead digits ++ [action])) post
            (modeAfter mode digits action) hpost (hclear'.head hdigits haction)
          have hfirst : Latest (fun p m => ReadFrom pre (modeHead digits ++ action :: post) p m ∧
              p = pre.length) mode (modeAfter mode digits action) := by
            rcases modeAfter_cases mode digits action with ⟨mode', hcode, rfl, hafter⟩ |
              ⟨hnone, hafter⟩
            · rw [hafter]
              refine .last ⟨pre.length, ⟨?_, rfl⟩, ?_⟩
              · exact (readFrom_here _ _ _).mpr ⟨hpre, digits, post, rfl, hcode⟩
              · intro q w hq
                exact Nat.le_of_eq hq.2
            rw [hafter]
            refine .none ?_
            intro p m h
            obtain ⟨h, rfl⟩ := h
            obtain ⟨-, code, post', e, hcode⟩ := (readFrom_here _ _ _).mp h
            have e' : digits ++ action :: post = code ++ modeAction m :: post' := by
              simpa [modeHead] using e
            obtain ⟨rfl, rfl, -⟩ := append_cons_inj hdigits (digits_of_code hcode) haction
              (modeAction_not_digit m) e'
            exact hnone ⟨m, hcode, rfl⟩
          refine (hfirst.union hrest ?_).congr ?_
          · intro p a q b' hp hq
            obtain ⟨-, rfl⟩ := hp
            refine ⟨q, b', hq, ?_⟩
            have hle := hq.1
            rw [length_append] at hle
            omega
          intro p m
          rw [readFrom_head hpre hdigits]
          constructor
          · intro h
            rcases h with h | h
            · exact h.1
            · exact h.1
          intro h
          by_cases hp : p = pre.length
          · exact .inl ⟨h, hp⟩
          · exact .inr ⟨h, hp⟩
      · rw [scanBufferMode, if_neg hshort, if_neg hhead]
        have hnext := ih (pre ++ [b]) rest mode (Nat.le_of_succ_le_succ hn) (hclear.snoc hhead)
        refine hnext.congr ?_
        intro p m
        rw [readFrom_snoc]
        constructor
        · intro h
          exact h.1
        intro h
        refine ⟨h, ?_⟩
        intro hp
        subst hp
        obtain ⟨-, code, post, e, -⟩ := (readFrom_here _ _ _).mp h
        obtain ⟨eb, erest⟩ := cons.inj e
        refine hhead ⟨eb, ?_⟩
        rw [erest]
        rfl

theorem scan_latest (chunk : Bytes) (mode : TerminalBufferMode) :
    Latest (ReadIn chunk) mode (scanBufferMode 0 mode chunk) := by
  have h := scan_from chunk.length [] chunk mode (Nat.le_refl _) (headsEnd_nil chunk)
  refine h.congr ?_
  intro p m
  constructor
  · intro hread
    exact hread.2
  · intro hread
    exact ⟨Nat.zero_le p, hread⟩

def pushAll (b : ReplayBuffer) (chunks : List Bytes) : ReplayBuffer :=
  chunks.foldl ReplayBuffer.push b

theorem push_bufferMode (b : ReplayBuffer) (data : Bytes) :
    (b.push data).bufferMode = scanBufferMode 0 b.bufferMode data := by
  unfold ReplayBuffer.push
  by_cases hdata : data = []
  · rw [if_pos hdata, hdata, scanBufferMode]
  · rw [if_neg hdata, ReplayBuffer.evictFront_spec]
    rfl

theorem readAt_snoc (chunks : List Bytes) (chunk : Bytes) (p : Nat) (mode : TerminalBufferMode) :
    ReadAt (chunks ++ [chunk]) p mode ↔ ReadAt chunks p mode ∨
      chunks.flatten.length ≤ p ∧ ReadIn chunk (p - chunks.flatten.length) mode := by
  constructor
  · intro h
    obtain ⟨before, c, after, q, e, hread, hp⟩ := h
    rcases eq_nil_or_concat after with rfl | ⟨after', d, rfl⟩
    · obtain ⟨rfl, e'⟩ := append_inj' e rfl
      obtain rfl := (cons.inj e').1
      refine .inr ⟨by omega, ?_⟩
      rw [hp, Nat.add_sub_cancel_left]
      exact hread
    · have e' : chunks ++ [chunk] = (before ++ c :: after') ++ [d] := by
        rw [e]
        simp
      obtain ⟨rfl, -⟩ := append_inj' e' rfl
      exact .inl ⟨before, c, after', q, rfl, hread, hp⟩
  · intro h
    rcases h with h | ⟨hle, hread⟩
    · obtain ⟨before, c, after, q, rfl, hread, hp⟩ := h
      exact ⟨before, c, after ++ [chunk], q, by simp, hread, hp⟩
    · exact ⟨chunks, chunk, [], _, rfl, hread, by omega⟩

theorem readAt_lt {chunks : List Bytes} {p : Nat} (h : ReadAt chunks p mode) :
    p < chunks.flatten.length := by
  obtain ⟨pre, s, post, e, rfl, params, rfl, -⟩ := h.switchAt
  rw [e]
  simp [modeHead]

theorem bufferMode_latest (b : ReplayBuffer) (chunks : List Bytes) :
    Latest (ReadAt chunks) b.bufferMode (pushAll b chunks).bufferMode := by
  induction chunks using reverseRecOn with
  | nil =>
    refine .none ?_
    intro p mode h
    exact absurd (readAt_lt h) (Nat.not_lt_zero p)
  | append_singleton chunks chunk ih =>
    rw [pushAll, foldl_append]
    show Latest _ _ ((pushAll b chunks).push chunk).bufferMode
    rw [push_bufferMode]
    have hchunk := scan_latest chunk (pushAll b chunks).bufferMode
    have hmoved := hchunk.shift chunks.flatten.length
    refine (ih.union hmoved ?_).congr ?_
    · intro p a q b' hp hq
      have hlt := readAt_lt hp
      exact ⟨q, b', hq, by omega⟩
    · intro p mode
      exact (readAt_snoc chunks chunk p mode).symm

/-- the last complete switch of the stream, if there is one, turns the alternate screen on -/
def EndsInAlternate (stream : Bytes) : Prop := LastMatch (SwitchAt stream) .alternate

/-- the last switch that the chunks let the scan read, or none, says what the last switch of the
stream says -/
def ReadsLast (chunks : List Bytes) : Prop :=
  ∀ mode, LastMatch (SwitchAt chunks.flatten) mode → Latest (ReadAt chunks) .normal mode

theorem bufferMode_iff (maxBytes epoch : Nat) (chunks : List Bytes) :
    ((pushAll (.new maxBytes epoch) chunks).bufferMode = .alternate ↔
      EndsInAlternate chunks.flatten) ↔ ReadsLast chunks := by
  have hlatest : Latest (ReadAt chunks) .normal
      (pushAll (.new maxBytes epoch) chunks).bufferMode :=
    bufferMode_latest (.new maxBytes epoch) chunks
  generalize (pushAll (.new maxBytes epoch) chunks).bufferMode = found at hlatest ⊢
  have hone := readAt_oneValue chunks
  constructor
  · intro hiff mode hlast
    have hfound : found = mode := by
      cases mode with
      | alternate => exact hiff.mpr hlast
      | normal =>
        cases hfound : found with
        | normal => rfl
        | alternate => exact (hiff.mp hfound).unique (switchAt_oneValue _) hlast
    rw [← hfound]
    exact hlatest
  intro hreads
  constructor
  · intro hfound
    rw [hfound] at hlatest
    cases hlatest with
    | last h =>
      obtain ⟨p, hp, hmax⟩ := h
      have hbound : ∀ q w, SwitchAt chunks.flatten q w → q ≤ chunks.flatten.length := by
        intro q w hq
        obtain ⟨pre, s, post, e, rfl, -⟩ := hq
        rw [e]
        simp
      obtain ⟨mode, hlast⟩ := exists_lastMatch hbound hp.switchAt
      have hmode : mode = .alternate := (hreads mode hlast).unique hone (.last ⟨p, hp, hmax⟩)
      rw [hmode] at hlast
      exact hlast
  · intro hlast
    exact hlatest.unique hone (hreads _ hlast)

theorem bufferMode_follows (maxBytes epoch : Nat) (chunks chunks' : List Bytes)
    (h : chunks.flatten = chunks'.flatten) :
    ((pushAll (.new maxBytes epoch) chunks).bufferMode =
        (pushAll (.new maxBytes epoch) chunks').bufferMode ∧
      ((pushAll (.new maxBytes epoch) chunks).bufferMode = .alternate ↔
        EndsInAlternate chunks.flatten)) ↔ ReadsLast chunks ∧ ReadsLast chunks' := by
  rw [← bufferMode_iff maxBytes epoch chunks, ← bufferMode_iff maxBytes epoch chunks', ← h]
  generalize (pushAll (.new maxBytes epoch) chunks).bufferMode = m
  generalize (pushAll (.new maxBytes epoch) chunks').bufferMode = m'
  constructor
  · intro hboth
    obtain ⟨rfl, hiff⟩ := hboth
    exact ⟨hiff, hiff⟩
  intro hboth
  obtain ⟨hiff, hiff'⟩ := hboth
  refine ⟨?_, hiff⟩
  have hsame := hiff.trans hiff'.symm
  cases m <;> cases m' <;> simp_all

/-- a switch to the alternate screen, in one chunk or with more after it in another -/
theorem bufferMode_follows_whole :
    ((pushAll (.new 64 0) [modeHead [0x34, 0x37] ++ [0x68], [0x20]]).bufferMode =
        (pushAll (.new 64 0) [modeHead [0x34, 0x37] ++ [0x68, 0x20]]).bufferMode ∧
      ((pushAll (.new 64 0) [modeHead [0x34, 0x37] ++ [0x68], [0x20]]).bufferMode = .alternate ↔
        EndsInAlternate (modeHead [0x34, 0x37] ++ [0x68, 0x20]))) ↔
    ReadsLast [modeHead [0x34, 0x37] ++ [0x68], [0x20]] ∧
      ReadsLast [modeHead [0x34, 0x37] ++ [0x68, 0x20]] :=
  bufferMode_follows 64 0 [modeHead [0x34, 0x37] ++ [0x68], [0x20]]
    [modeHead [0x34, 0x37] ++ [0x68, 0x20]] rfl

/-- the same switch in one chunk, and cut in the middle of its code -/
theorem bufferMode_cut :
    [modeHead [0x34], [0x37, 0x68]].flatten = [modeHead [0x34, 0x37] ++ [0x68]].flatten ∧
    EndsInAlternate [modeHead [0x34], [0x37, 0x68]].flatten ∧
    (pushAll (.new 64 0) [modeHead [0x34], [0x37, 0x68]]).bufferMode = .normal ∧
    (pushAll (.new 64 0) [modeHead [0x34, 0x37] ++ [0x68]]).bufferMode = .alternate := by
  refine ⟨rfl, ?_, by decide, by decide⟩
  refine ⟨0, ⟨[], _, [], (append_nil _).symm, rfl, SingleSwitch.switch ⟨[0x34, 0x37], rfl,
    by decide⟩⟩, ?_⟩
  intro q mode h
  obtain ⟨pre, s, post, e, rfl, params, rfl, hparams, hcode⟩ := h
  match pre with
  | [] => exact Nat.le_refl 0
  | b :: pre =>
    have hmem : (0x1b : UInt8) ∈ ([0x5b, 0x3f, 0x34, 0x37, 0x68] : Bytes) := by
      have e' : ([0x5b, 0x3f, 0x34, 0x37, 0x68] : Bytes) =
          pre ++ (modeHead params ++ [modeAction mode] ++ post) := (cons.inj e).2
      rw [e']
      simp [modeHead]
    exact absurd hmem (by decide)

end CcPanes

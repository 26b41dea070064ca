import CcPanes.View.DataRenderer
import Mathlib.Data.List.DropRight

/-!
# What an SGR sequence means

A terminal reads the parameters of `ESC [ … m` from left to right.  The colours `38` and `48` take
the parameters behind them: `5;n` or `2;r;g;b`, or they have their arguments in the same group,
after colons.
-/

namespace CcPanes.Sgr
open List

/-- the number a group begins with; `0` if it begins with nothing -/
def codeOf (group : JsString) : Nat := digitsValue ((group.splitOn colon).headD [])

structure Attributes (κ ρ : Type) where
  foreground : κ
  background : κ
  reverse : Bool
  style : ρ

/-- how a terminal that has colours `κ` and styles `ρ` reads the groups -/
structure SgrTerminal (κ ρ : Type) where
  defaultColour : κ
  basicColour : Nat → κ
  /-- the colour of a group `38` or `48` and its arguments; `none` leaves the colour as it is -/
  extendedColour : JsString → List JsString → Option κ
  /-- how many parameters are taken by a colour group with too few arguments behind its colons -/
  mixed : JsString → Nat
  plainStyle : ρ
  style : JsString → ρ → ρ

/-- the group has all arguments of a colour behind its colons -/
def isComplete (group : JsString) : Bool :=
  let subs := group.splitOn colon
  let mode := (subs[1]?).map digitsValue
  (mode = some 5 && 3 ≤ subs.length) ||
    (mode = some 2 && (if subs[2]? = some [] then 6 else 5) ≤ subs.length)

def isMode (group : JsString) : Bool := codeOf group = 5 || codeOf group = 2

/-- a colour whose arguments are the parameters behind it -/
def isBareColour (group : JsString) : Bool :=
  (codeOf group = 38 || codeOf group = 48) && (group.splitOn colon).length ≤ 1

section
variable {κ ρ : Type} (T : SgrTerminal κ ρ) {token : JsString × List JsString}

def taken (group : JsString) (next : Option JsString) : Nat :=
  if codeOf group = 38 ∨ codeOf group = 48 then
    if (group.splitOn colon).length ≤ 1 then
      match next with
      | some mode => if codeOf mode = 5 then 2 else if codeOf mode = 2 then 4 else 0
      | none => 0
    else if isComplete group then 0
    else T.mixed group
  else 0

/-- the groups with their arguments; the first `skip` parameters have been taken -/
def tokens : (skip : Nat) → List JsString → List (JsString × List JsString)
  | _, [] => []
  | skip + 1, _ :: params => tokens skip params
  | 0, group :: params =>
    (group, params.take (taken T group params.head?)) ::
      tokens (taken T group params.head?) params

abbrev IsBackground (value : Nat) : Prop := (40 ≤ value ∧ value ≤ 49) ∨ (100 ≤ value ∧ value ≤ 107)

abbrev IsForeground (value : Nat) : Prop := (30 ≤ value ∧ value ≤ 39) ∨ (90 ≤ value ∧ value ≤ 97)

def applyForeground (group : JsString) (args : List JsString) (old : κ) : κ :=
  let value := codeOf group
  if value = 0 ∨ value = 39 then T.defaultColour
  else if value = 38 then (T.extendedColour group args).getD old
  else if 30 ≤ value ∧ value ≤ 37 then T.basicColour (value - 30)
  else if 90 ≤ value ∧ value ≤ 97 then T.basicColour (value - 82)
  else old

def applyBackground (group : JsString) (args : List JsString) (old : κ) : κ :=
  let value := codeOf group
  if value = 0 ∨ value = 49 then T.defaultColour
  else if value = 48 then (T.extendedColour group args).getD old
  else if 40 ≤ value ∧ value ≤ 47 then T.basicColour (value - 40)
  else if 100 ≤ value ∧ value ≤ 107 then T.basicColour (value - 92)
  else old

def applyReverse (group : JsString) (old : Bool) : Bool :=
  if codeOf group = 7 then true else if codeOf group = 0 ∨ codeOf group = 27 then false else old

def applyStyle (group : JsString) (old : ρ) : ρ :=
  let value := codeOf group
  if value = 0 then T.plainStyle
  else if IsForeground value ∨ IsBackground value ∨ value = 7 ∨ value = 27 then old
  else T.style group old

def apply (a : Attributes κ ρ) (token : JsString × List JsString) : Attributes κ ρ where
  foreground := applyForeground T token.1 token.2 a.foreground
  background := applyBackground T token.1 token.2 a.background
  reverse := applyReverse token.1 a.reverse
  style := applyStyle T token.1 a.style

def interpretParams (params : List JsString) (a : Attributes κ ρ) : Attributes κ ρ :=
  (tokens T 0 params).foldl (apply T) a

def interpret (sequence : JsString) (a : Attributes κ ρ) : Attributes κ ρ :=
  if sequence = [] then a
  else interpretParams T (((sequence.drop 2).dropLast).splitOn semicolon) a

theorem tokens_nil (skip : Nat) : tokens T skip [] = [] := by
  cases skip <;> rfl

theorem tokens_skip (skip : Nat) (params : List JsString) :
    tokens T skip params = tokens T 0 (params.drop skip) := by
  induction params generalizing skip with
  | nil => rw [drop_nil, tokens_nil, tokens_nil]
  | cons group params ih =>
    cases skip with
    | zero => rfl
    | succ skip => exact ih skip

theorem tokens_cons (group : JsString) (params : List JsString) :
    tokens T 0 (group :: params) =
      (group, params.take (taken T group params.head?)) ::
        tokens T 0 (params.drop (taken T group params.head?)) := by
  rw [← tokens_skip]
  rfl

theorem mem_tokens {skip : Nat} {params : List JsString} (h : token ∈ tokens T skip params) :
    token.1 ∈ params := by
  induction params generalizing skip with
  | nil =>
    rw [tokens_nil] at h
    cases h
  | cons group params ih =>
    cases skip with
    | zero =>
      obtain rfl | h := mem_cons.mp h
      · exact mem_cons_self
      · exact mem_cons_of_mem _ (ih h)
    | succ skip => exact mem_cons_of_mem _ (ih h)

/-! ## effects -/

def shows (token : JsString × List JsString) : Bool :=
  decide (¬ IsBackground (codeOf token.1) ∧ codeOf token.1 ≠ 7)

def Attributes.kept (a : Attributes κ ρ) : κ × ρ := (a.foreground, a.style)

theorem apply_hidden (a : Attributes κ ρ) (h : shows token = false) :
    (apply T a token).kept = a.kept := by
  have hhidden : IsBackground (codeOf token.1) ∨ codeOf token.1 = 7 := by
    by_contra hnot
    rw [not_or] at hnot
    exact Bool.false_ne_true (h.symm.trans (decide_eq_true hnot))
  have hforeground : applyForeground T token.1 token.2 a.foreground = a.foreground := by
    unfold applyForeground
    dsimp only
    rw [if_neg (by omega), if_neg (by omega), if_neg (by omega), if_neg (by omega)]
  have hstyle : applyStyle T token.1 a.style = a.style := by
    unfold applyStyle
    dsimp only
    rw [if_neg (by omega), if_pos (by omega)]
  exact Prod.ext hforeground hstyle

theorem apply_kept {a b : Attributes κ ρ} (h : a.kept = b.kept) (token : JsString × List JsString) :
    (apply T a token).kept = (apply T b token).kept := by
  obtain ⟨hforeground, hstyle⟩ := Prod.mk.inj h
  have hf := congrArg (applyForeground T token.1 token.2) hforeground
  have hs := congrArg (applyStyle T token.1) hstyle
  exact Prod.ext hf hs

theorem fold_kept {a b : Attributes κ ρ} (h : a.kept = b.kept)
    (list : List (JsString × List JsString)) :
    (list.foldl (apply T) a).kept = ((list.filter shows).foldl (apply T) b).kept := by
  induction list generalizing a b with
  | nil => exact h
  | cons token list ih =>
    cases hshows : shows token with
    | true =>
      rw [filter_cons_of_pos hshows]
      exact ih (apply_kept T h token)
    | false =>
      rw [filter_cons_of_neg (by rw [hshows]; exact Bool.false_ne_true)]
      exact ih ((apply_hidden T a hshows).trans h)

/-- **Foreground and style depend on the tokens that set them.** -/
theorem interpret_shown {params params' : List JsString}
    (h : (tokens T 0 params').filter shows = (tokens T 0 params).filter shows)
    (a : Attributes κ ρ) : (interpretParams T params' a).kept = (interpretParams T params a).kept := by
  unfold interpretParams
  rw [fold_kept T rfl, h, ← fold_kept T rfl]

def IsNeutral (group : JsString) : Prop := codeOf group = 49 ∨ ¬ IsBackground (codeOf group)

theorem apply_background (a : Attributes κ ρ) (h : IsNeutral token.1) :
    (apply T a token).background = a.background ∨
      (apply T a token).background = T.defaultColour := by
  unfold IsNeutral at h
  show applyBackground T token.1 token.2 a.background = _ ∨ applyBackground T token.1 token.2 a.background = _
  unfold applyBackground
  dsimp only
  by_cases hdefault : codeOf token.1 = 0 ∨ codeOf token.1 = 49
  · exact .inr (if_pos hdefault)
  · left
    rw [if_neg hdefault, if_neg (by omega), if_neg (by omega), if_neg (by omega)]

/-- **Neutral groups enable no background.** -/
theorem interpret_background {params : List JsString} (h : ∀ group ∈ params, IsNeutral group)
    (a : Attributes κ ρ) : (interpretParams T params a).background = a.background ∨
      (interpretParams T params a).background = T.defaultColour := by
  have hfold : ∀ (list : List (JsString × List JsString)) (b : Attributes κ ρ),
      (∀ token ∈ list, IsNeutral token.1) →
        (list.foldl (apply T) b).background = b.background ∨
          (list.foldl (apply T) b).background = T.defaultColour := by
    intro list
    induction list with
    | nil => exact fun b _ => .inl rfl
    | cons token list ih =>
      intro b hlist
      rw [forall_mem_cons] at hlist
      obtain hb | hb := apply_background T b hlist.1
      · rw [← hb]
        exact ih (apply T b token) hlist.2
      · obtain hrest | hrest := ih (apply T b token) hlist.2
        · exact .inr (hrest.trans hb)
        · exact .inr hrest
  exact hfold _ a fun token htoken => h _ (mem_tokens T htoken)

end

end CcPanes.Sgr

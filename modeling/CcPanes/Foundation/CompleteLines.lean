import Mathlib.Data.List.Basic

/-!
# Reading the lines of a list

A reader takes what ends with a separator, one line after the other.  What comes behind the last
separator is no line yet.
-/

namespace CompleteLines
open List

section
variable {α β : Type} [DecidableEq α] (sep : α)

def readUntil : List α → List α × List α
  | [] => ([], [])
  | x :: l => if x = sep then ([x], l) else (x :: (readUntil l).1, (readUntil l).2)

def completeLines : List α → List (List α)
  | [] => []
  | x :: l =>
    if x = sep then [x] :: completeLines l
    else
      match completeLines l with
      | [] => []
      | line :: lines => (x :: line) :: lines

/-- `offset` counts the elements of the lines that were read -/
def readLines (f : β → List α → β) : (remaining : Nat) → List α → β → (offset : Nat) → β × Nat
  | 0, _, b, offset => (b, offset)
  | remaining + 1, reader, b, offset =>
    let (buffer, rest) := readUntil sep reader
    if buffer.getLast? = some sep then
      readLines f remaining rest (f b buffer) (offset + buffer.length)
    else (b, offset)

theorem completeLines_cons (x : α) (l : List α) :
    completeLines sep (x :: l) =
      if x = sep then [x] :: completeLines sep l
      else
        match completeLines sep l with
        | [] => []
        | line :: lines => (x :: line) :: lines :=
  rfl

theorem readUntil_cons (x : α) (l : List α) :
    readUntil sep (x :: l) =
      if x = sep then ([x], l) else (x :: (readUntil sep l).1, (readUntil sep l).2) :=
  rfl

theorem readLines_succ (f : β → List α → β) (remaining : Nat) (l : List α) (b : β)
    (offset : Nat) :
    readLines sep f (remaining + 1) l b offset =
      if (readUntil sep l).1.getLast? = some sep then
        readLines sep f remaining (readUntil sep l).2 (f b (readUntil sep l).1)
          (offset + (readUntil sep l).1.length)
      else (b, offset) :=
  rfl

theorem completeLines_eq (l : List α) :
    completeLines sep l =
      if (readUntil sep l).1.getLast? = some sep then
        (readUntil sep l).1 :: completeLines sep (readUntil sep l).2
      else [] := by
  induction l with
  | nil => rfl
  | cons x l ih =>
    rw [completeLines_cons, readUntil_cons]
    by_cases hx : x = sep
    · have hlast : [x].getLast? = some sep := congrArg some hx
      rw [if_pos hx, if_pos hx, if_pos hlast]
    rw [if_neg hx, if_neg hx, ih]
    cases hline : (readUntil sep l).1 with
    | nil =>
      have hlast : [x].getLast? ≠ some sep := by
        exact fun h => hx (Option.some.inj h)
      rw [if_neg hlast, getLast?_nil, if_neg nofun]
    | cons y line =>
      rw [getLast?_cons_cons]
      by_cases hlast : (y :: line).getLast? = some sep
      · rw [if_pos hlast, if_pos hlast]
      · rw [if_neg hlast, if_neg hlast]

/-- **The loop folds the first complete lines.** -/
theorem readLines_eq (f : β → List α → β) (remaining : Nat) :
    ∀ (l : List α) (b : β) (offset : Nat),
      readLines sep f remaining l b offset =
        (((completeLines sep l).take remaining).foldl f b,
          offset + ((completeLines sep l).take remaining).flatten.length) := by
  induction remaining with
  | zero =>
    intro l b offset
    rfl
  | succ remaining ih =>
    intro l b offset
    rw [readLines_succ, completeLines_eq]
    by_cases hlast : (readUntil sep l).1.getLast? = some sep
    · rw [if_pos hlast, if_pos hlast, ih, take_succ_cons, foldl_cons,
        flatten_cons, length_append, Nat.add_assoc]
    · rw [if_neg hlast, if_neg hlast]
      rfl

end

section
variable {α β γ : Type}

theorem foldl_take_eq {f : β → α → β} {g : β → γ} (n : Nat) (lines : List α)
    (hidle : ∀ line ∈ lines.drop n, ∀ b, g (f b line) = g b) (b : β) :
    g ((lines.take n).foldl f b) = g (lines.foldl f b) := by
  have hrest : ∀ (rest : List α), (∀ line ∈ rest, ∀ b, g (f b line) = g b) →
      ∀ b, g (rest.foldl f b) = g b := by
    intro rest
    induction rest with
    | nil => exact fun _ _ => rfl
    | cons line rest ih =>
      intro h b
      rw [foldl_cons, ih (fun l hl => h l (mem_cons_of_mem line hl))]
      exact h line mem_cons_self b
  conv_rhs => rw [← take_append_drop n lines, foldl_append]
  exact (hrest _ hidle _).symm

end

end CompleteLines

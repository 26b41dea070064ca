import Mathlib.Logic.Function.Basic
import Mathlib.Algebra.GroupWithZero.Nat

/-!
# Content-addressed stores

A store holds named blobs, in the order of its directory.  The name of a blob is a digest of the
content it stands for, its bytes are one of several representations of that content: a blob is
written once (`writeIfAbsent`), may change its representation in place (`transcode`), and is
collected when nothing refers to it (`retain`).  `write` and `remove` are the operations on single
files.
-/

namespace BlobStore
open List

variable {κ ρ : Type} [DecidableEq κ]

/-- the bytes under the name `k` -/
def read : List (κ × ρ) → κ → Option ρ
  | [], _ => none
  | b :: s, k => if b.1 = k then some b.2 else read s k

def writeIfAbsent (s : List (κ × ρ)) (k : κ) (r : ρ) : List (κ × ρ) :=
  if (read s k).isSome then s else s ++ [(k, r)]

/-- every blob is replaced by `g` of it, under its name -/
def transcode (g : κ → ρ → ρ) (s : List (κ × ρ)) : List (κ × ρ) := s.map fun b => (b.1, g b.1 b.2)

/-- only the blobs whose name `p` accepts remain -/
def retain (p : κ → Bool) (s : List (κ × ρ)) : List (κ × ρ) := s.filter fun b => p b.1

def remove (s : List (κ × ρ)) (k : κ) : List (κ × ρ) := retain (fun k' => k' ≠ k) s

/-- the blob under the name is `r`, whatever it was -/
def write (s : List (κ × ρ)) (k : κ) (r : ρ) : List (κ × ρ) := (k, r) :: remove s k

theorem read_nil (k : κ) : read ([] : List (κ × ρ)) k = none := rfl

theorem read_cons (b : κ × ρ) (s : List (κ × ρ)) (k : κ) :
    read (b :: s) k = if b.1 = k then some b.2 else read s k := rfl

theorem read_append_of_none (s t : List (κ × ρ)) (k : κ) (h : read s k = none) :
    read (s ++ t) k = read t k := by
  induction s with
  | nil => rfl
  | cons b s ih =>
    rw [read_cons] at h
    rw [cons_append, read_cons]
    by_cases hb : b.1 = k
    · rw [if_pos hb] at h
      cases h
    · rw [if_neg hb] at h ⊢
      exact ih h

theorem read_append_of_some {s t : List (κ × ρ)} {k : κ} {r : ρ} (h : read s k = some r) :
    read (s ++ t) k = some r := by
  induction s with
  | nil => cases h
  | cons b s ih =>
    rw [read_cons] at h
    rw [cons_append, read_cons]
    by_cases hb : b.1 = k
    · rw [if_pos hb] at h ⊢
      exact h
    · rw [if_neg hb] at h ⊢
      exact ih h

theorem read_writeIfAbsent_self (s : List (κ × ρ)) (k : κ) (r : ρ) :
    read (writeIfAbsent s k r) k = some ((read s k).getD r) := by
  unfold writeIfAbsent
  cases h : read s k with
  | none =>
    show read (s ++ [(k, r)]) k = some r
    rw [read_append_of_none s _ k h, read_cons, if_pos rfl]
  | some r' => exact h

theorem read_writeIfAbsent_ne (s : List (κ × ρ)) {k k' : κ} (r : ρ) (hne : k ≠ k') :
    read (writeIfAbsent s k r) k' = read s k' := by
  unfold writeIfAbsent
  split
  · rfl
  · cases h : read s k' with
    | none => rw [read_append_of_none s _ k' h, read_cons, if_neg hne, read_nil]
    | some r' => exact read_append_of_some h

theorem read_writeIfAbsent_of_some {s : List (κ × ρ)} {k : κ} {r : ρ} (h : read s k = some r)
    (k' : κ) (r' : ρ) : read (writeIfAbsent s k' r') k = some r := by
  by_cases hk : k' = k
  · subst hk
    unfold writeIfAbsent
    rw [h]
    exact h
  · rw [read_writeIfAbsent_ne s r' hk, h]

theorem read_transcode (g : κ → ρ → ρ) (s : List (κ × ρ)) (k : κ) :
    read (transcode g s) k = (read s k).map (g k) := by
  induction s with
  | nil => rfl
  | cons b s ih =>
    show read ((b.1, g b.1 b.2) :: transcode g s) k = _
    rw [read_cons, read_cons, ih]
    by_cases hb : b.1 = k
    · subst hb
      rw [if_pos rfl, if_pos rfl, Option.map_some]
    · rw [if_neg hb, if_neg hb]

theorem read_retain (p : κ → Bool) (s : List (κ × ρ)) (k : κ) :
    read (retain p s) k = if p k then read s k else none := by
  induction s with
  | nil => rw [show retain p ([] : List (κ × ρ)) = [] from rfl, read_nil, ite_self]
  | cons b s ih =>
    have ih' : read (s.filter fun b => p b.1) k = if p k then read s k else none := ih
    show read ((b :: s).filter fun b => p b.1) k = _
    rw [filter_cons, read_cons]
    by_cases hb : b.1 = k
    · rw [if_pos hb, hb]
      cases hp : p k with
      | true => rw [if_pos rfl, if_pos rfl, read_cons, if_pos hb]
      | false =>
        rw [hp] at ih'
        exact ih'
    · rw [if_neg hb]
      split
      · rw [read_cons, if_neg hb]
        exact ih'
      · exact ih'

theorem read_remove (s : List (κ × ρ)) (k k' : κ) :
    read (remove s k) k' = if k' = k then none else read s k' := by
  rw [remove, read_retain]
  by_cases hk : k' = k
  · rw [if_pos hk, if_neg (by simp [hk])]
  · rw [if_neg hk, if_pos (by simp [hk])]

theorem read_write (s : List (κ × ρ)) (k k' : κ) (r : ρ) :
    read (write s k r) k' = if k' = k then some r else read s k' := by
  rw [write, read_cons, read_remove]
  by_cases hk : k' = k
  · rw [if_pos hk.symm, if_pos hk]
  · rw [if_neg (Ne.symm hk), if_neg hk, if_neg hk]

theorem mem_names (s : List (κ × ρ)) {k : κ} (h : (read s k).isSome = true) :
    k ∈ s.map Prod.fst := by
  induction s with
  | nil => cases h
  | cons b s ih =>
    rw [read_cons] at h
    rw [map_cons, mem_cons]
    by_cases hb : b.1 = k
    · exact .inl hb.symm
    · rw [if_neg hb] at h
      exact .inr (ih h)

def total (size : ρ → Nat) (s : List (κ × ρ)) : Nat := (s.map fun b => size b.2).sum

section
variable (size : ρ → Nat)

omit [DecidableEq κ] in
theorem total_cons (b : κ × ρ) (s : List (κ × ρ)) :
    total size (b :: s) = size b.2 + total size s := by
  rfl

omit [DecidableEq κ] in
theorem total_retain_cons (p : κ → Bool) (b : κ × ρ) (s : List (κ × ρ)) :
    total size (retain p (b :: s)) =
      (if p b.1 then size b.2 else 0) + total size (retain p s) := by
  unfold retain
  cases hp : p b.1 with
  | true => rw [filter_cons_of_pos (by exact hp), total_cons, if_pos rfl]
  | false =>
    rw [filter_cons_of_neg (by rw [hp]; exact Bool.false_ne_true), if_neg Bool.false_ne_true,
      Nat.zero_add]

omit [DecidableEq κ] in
theorem total_retain_or {p q : κ → Bool} (h : ∀ k, p k = true → q k = false)
    (s : List (κ × ρ)) :
    total size (retain (fun k => p k || q k) s) =
      total size (retain p s) + total size (retain q s) := by
  induction s with
  | nil => rfl
  | cons b s ih =>
    rw [total_retain_cons, total_retain_cons, total_retain_cons, ih]
    cases hp : p b.1 with
    | true =>
      rw [h _ hp, Bool.true_or, if_pos rfl, if_neg Bool.false_ne_true]
      omega
    | false =>
      rw [Bool.false_or, if_neg Bool.false_ne_true]
      omega

theorem total_retain_eq {s : List (κ × ρ)} (hnames : (s.map Prod.fst).Nodup) (k : κ) :
    total size (retain (fun k' => k' = k) s) = ((read s k).map size).getD 0 := by
  induction s with
  | nil => rfl
  | cons b s ih =>
    obtain ⟨hb, hrest⟩ := nodup_cons.mp hnames
    rw [total_retain_cons, ih hrest, read_cons]
    by_cases hk : b.1 = k
    · have hnone : read s k = none := by
        rw [Option.eq_none_iff_forall_ne_some]
        intro r hr
        exact hb (hk ▸ mem_names s (by rw [hr]; rfl))
      rw [if_pos hk, if_pos (decide_eq_true hk), hnone]
      rfl
    · rw [if_neg hk, if_neg (by simpa using hk), Nat.zero_add]

end

/-! ## what holds of all blobs -/

/-- `P` holds of every blob and its name -/
def Every (P : κ → ρ → Prop) (s : List (κ × ρ)) : Prop := ∀ k r, read s k = some r → P k r

variable {P : κ → ρ → Prop} {s : List (κ × ρ)}

theorem Every.nil : Every P ([] : List (κ × ρ)) := by
  intro k r h
  cases h

theorem Every.writeIfAbsent (h : Every P s) {k : κ} {r : ρ} (hr : P k r) :
    Every P (writeIfAbsent s k r) := by
  intro k' r' h'
  by_cases hk : k = k'
  · subst hk
    rw [read_writeIfAbsent_self] at h'
    cases hs : read s k with
    | none =>
      rw [hs] at h'
      cases h'
      exact hr
    | some r₀ =>
      rw [hs] at h'
      cases h'
      exact h k r₀ hs
  · rw [read_writeIfAbsent_ne s r hk] at h'
    exact h k' r' h'

theorem Every.transcode (h : Every P s) {g : κ → ρ → ρ} (hg : ∀ k r, P k r → P k (g k r)) :
    Every P (transcode g s) := by
  intro k r h'
  rw [read_transcode] at h'
  cases hs : read s k with
  | none =>
    rw [hs] at h'
    cases h'
  | some r₀ =>
    rw [hs] at h'
    cases h'
    exact hg k r₀ (h k r₀ hs)

theorem Every.retain (h : Every P s) (p : κ → Bool) : Every P (retain p s) := by
  intro k r h'
  rw [read_retain] at h'
  split at h'
  · exact h k r h'
  · cases h'

theorem Every.remove (h : Every P s) (k : κ) : Every P (remove s k) := h.retain _

theorem Every.write (h : Every P s) {k : κ} {r : ρ} (hr : P k r) : Every P (write s k r) := by
  intro k' r' h'
  rw [read_write] at h'
  split at h'
  next hk =>
    cases h'
    exact hk ▸ hr
  next => exact h k' r' h'

/-- `r` represents, by `rep`, the content that `k` is the digest of -/
def Represents {γ : Type} (digest : γ → κ) (rep : γ → ρ → Prop) (k : κ) (r : ρ) : Prop :=
  ∃ c, k = digest c ∧ rep c r

theorem Every.represents {γ : Type} {digest : γ → κ} {rep : γ → ρ → Prop}
    (hinj : Function.Injective digest) (h : Every (Represents digest rep) s) {c : γ} {r : ρ}
    (hread : read s (digest c) = some r) : rep c r := by
  obtain ⟨c', hc', hrep⟩ := h _ _ hread
  rw [hinj hc']
  exact hrep

end BlobStore

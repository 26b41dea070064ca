import CcPanes.Identity.ProjectIdentity

/-!
# Separators and drives in a path

What the functions of `path_normalize.rs` do to the characters of a path.
-/

namespace CcPanes.Identity
open List

section
variable {n : Nat} {l : Path}

theorem popFrom_spec (n : Nat) (l : Path) :
    ∃ seps, l = seps ++ popFrom n l ∧ ∀ c ∈ seps, isSeparator c := by
  induction l with
  | nil => exact ⟨[], rfl, nofun⟩
  | cons c cs ih =>
    rw [popFrom]
    split
    · next h =>
      obtain ⟨seps, hl, hseps⟩ := ih
      refine ⟨c :: seps, ?_, ?_⟩
      · rw [cons_append, ← hl]
      · rw [forall_mem_cons]
        exact ⟨h.2, hseps⟩
    · exact ⟨[], rfl, nofun⟩

theorem popFrom_length_lt (h : n < l.length) (hsep : l.head?.any isSeparator) :
    (popFrom n l).length < l.length := by
  cases l with
  | nil => cases hsep
  | cons c cs =>
    have hc : isSeparator c = true := hsep
    rw [popFrom, if_pos ⟨h, hc⟩]
    obtain ⟨seps, hl, -⟩ := popFrom_spec n cs
    have hlen := congrArg length hl
    rw [length_append] at hlen
    rw [length_cons]
    omega

theorem popFrom_of_not_sep (h : ¬l.head?.any isSeparator) : popFrom n l = l := by
  cases l with
  | nil => rfl
  | cons =>
    rw [popFrom, if_neg]
    exact fun hc => h hc.2

end

theorem toSlashes_length (path : Path) : (toSlashes path).length = path.length := length_map ..

theorem trimEndSlashes_slash (path : Path) : trimEndSlashes ('/' :: path) =
    if trimEndSlashes path = [] then [] else '/' :: trimEndSlashes path := by
  unfold trimEndSlashes rdropWhile
  rw [reverse_cons, dropWhile_append]
  by_cases h : path.reverse.dropWhile (fun c => decide (c = '/')) = []
  · simp [h]
  · rw [if_neg (by simpa using h), if_neg (by simpa using h), reverse_append]
    rfl

theorem trimEndSlashes_cons {c : Char} (hc : c ≠ '/') (path : Path) :
    trimEndSlashes (c :: path) = c :: trimEndSlashes path := by
  unfold trimEndSlashes rdropWhile
  rw [reverse_cons, dropWhile_append]
  by_cases h : path.reverse.dropWhile (fun c => decide (c = '/')) = []
  · simp [h, hc]
  · rw [if_neg (by simpa using h), reverse_append]
    rfl

theorem trimEndSlashes_pair {path : Path} (h : trimEndSlashes path ≠ []) :
    ['/', '/'].isPrefixOf (trimEndSlashes path) = ['/', '/'].isPrefixOf path := by
  match path with
  | [] => exact absurd rfl h
  | [c] =>
    by_cases hc : c = '/'
    · subst hc
      exact absurd rfl h
    · rw [trimEndSlashes_cons hc]
      rfl
  | a :: b :: rest =>
    by_cases ha : a = '/'
    · subst ha
      rw [trimEndSlashes_slash] at h ⊢
      by_cases hb : b = '/'
      · subst hb
        rw [trimEndSlashes_slash] at h ⊢
        by_cases hrest : trimEndSlashes rest = []
        · rw [if_pos hrest, if_pos rfl] at h
          exact absurd rfl h
        · rw [if_neg hrest, if_neg (cons_ne_nil _ _)]
          rfl
      · rw [trimEndSlashes_cons hb, if_neg (cons_ne_nil _ _)]
        simp [isPrefixOf]
    · have hfalse : ('/' == a) = false := beq_false_of_ne (Ne.symm ha)
      rw [trimEndSlashes_cons ha]
      simp [isPrefixOf, hfalse]

theorem splitOn_slash (path : Path) : ('/' :: path).splitOn '/' = [] :: path.splitOn '/' := by
  have h := splitOn_append_cons_self (a := '/') [] path
  simpa using h

/-! ## drives -/

theorem isDrivePath_iff {path : Path} : isDrivePath path = true ↔
    ∃ drive rest, path = drive :: ':' :: rest ∧ drive.isAlpha = true := by
  constructor
  · intro h
    unfold isDrivePath at h
    split at h
    · exact ⟨_, _, rfl, h⟩
    · cases h
  · rintro ⟨drive, rest, rfl, h⟩
    exact h

theorem isDrivePath_of_ne {drive colon : Char} {rest : Path} (h : colon ≠ ':') :
    isDrivePath (drive :: colon :: rest) = false := by
  unfold isDrivePath
  split
  · next h' =>
    cases h'
    exact absurd rfl h
  · rfl

theorem isSeparator_iff {c : Char} : isSeparator c = true ↔ (if c = '\\' then '/' else c) = '/' := by
  unfold isSeparator
  by_cases h : c = '\\'
  · simp [h]
  · simp [h]

theorem not_drive_of_slash {path rest : Path} (h : toSlashes path = '/' :: rest) :
    isDrivePath path = false := by
  cases path with
  | nil => rfl
  | cons c =>
    have hc : isSeparator c = true := isSeparator_iff.mpr (cons.inj h).1
    have halpha : c.isAlpha = false := by
      unfold isSeparator at hc
      simp only [Bool.or_eq_true, decide_eq_true_eq] at hc
      obtain rfl | rfl := hc <;> decide
    unfold isDrivePath
    split
    · next h' =>
      cases h'
      exact halpha
    · rfl

theorem upperDrive_of_not {path : Path} (h : isDrivePath path = false) : upperDrive path = path := by
  unfold upperDrive
  split
  · rw [h]
    rfl
  · rfl

theorem strip_cases (path : Path) :
    stripVerbatimDiskPrefix path = path ∨ isDrivePath (stripVerbatimDiskPrefix path) = true := by
  unfold stripVerbatimDiskPrefix
  split
  · split
    · next h => exact .inr h
    · exact .inl rfl
  · exact .inl rfl

theorem isDrivePath_upperDrive (path : Path) : isDrivePath (upperDrive path) = isDrivePath path := by
  cases h : isDrivePath path with
  | false => rw [upperDrive_of_not h, h]
  | true =>
    obtain ⟨drive, rest, rfl, halpha⟩ := isDrivePath_iff.mp h
    rw [upperDrive, if_pos h]
    exact (Char.isAlpha_toUpper_eq_isAlpha drive).trans halpha

theorem value_of_slash {path rest : Path}
    (h : toSlashes (upperDrive (stripVerbatimDiskPrefix path)) = '/' :: rest) :
    upperDrive (stripVerbatimDiskPrefix path) = path := by
  have hdrive := not_drive_of_slash h
  rw [isDrivePath_upperDrive] at hdrive
  rw [upperDrive_of_not hdrive]
  obtain hsame | hstripped := strip_cases path
  · exact hsame
  · rw [hdrive] at hstripped
    cases hstripped

theorem not_ssh_of_slash {path rest : Path} (h : toSlashes path = '/' :: rest) :
    isSshUrl path = false := by
  obtain ⟨c, cs, rfl, hc, -⟩ := map_eq_cons_iff.mp h
  have hsep : isSeparator c = true := isSeparator_iff.mpr hc
  apply decide_eq_false
  intro hssh
  have hhead : c.toLower = 's' := (cons.inj hssh).1
  unfold isSeparator at hsep
  simp only [Bool.or_eq_true, decide_eq_true_eq] at hsep
  obtain rfl | rfl := hsep <;> cases hhead

end CcPanes.Identity

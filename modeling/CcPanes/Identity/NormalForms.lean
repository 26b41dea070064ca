import CcPanes.Identity.Separators

/-!
# The normal form of a path

What `normalize_project_path` does to the separators of a path, and that it does nothing twice.
-/

namespace CcPanes.Identity
open List

variable {path : Path} {seps : Path}

/-! ## slashes -/

theorem toSlashes_append (a b : Path) : toSlashes (a ++ b) = toSlashes a ++ toSlashes b :=
  map_append ..

theorem toSlashes_cons (c : Char) (path : Path) :
    toSlashes (c :: path) = (if c = '\\' then '/' else c) :: toSlashes path := rfl

theorem toSlashes_eq_self (h : '\\' ∉ path) : toSlashes path = path := by
  unfold toSlashes
  rw [map_congr_left (g := id), map_id]
  intro c hc
  rw [if_neg]
  · rfl
  · rintro rfl
    exact h hc

theorem backslash_not_mem (path : Path) : '\\' ∉ toSlashes path := by
  intro h
  obtain ⟨c, -, hc⟩ := mem_map.mp h
  split at hc
  · cases hc
  · next hne => exact hne hc

theorem toSlashes_toSlashes (path : Path) : toSlashes (toSlashes path) = toSlashes path :=
  toSlashes_eq_self (backslash_not_mem path)

theorem isSeparator_toSlash (c : Char) :
    isSeparator (if c = '\\' then '/' else c) = isSeparator c := by
  by_cases h : c = '\\'
  · subst h
    rfl
  · rw [if_neg h]

theorem toSlashes_seps (h : ∀ c ∈ seps, isSeparator c) :
    toSlashes seps = List.replicate seps.length '/' := by
  rw [eq_replicate_iff]
  refine ⟨toSlashes_length seps, ?_⟩
  intro c hc
  obtain ⟨d, hd, rfl⟩ := mem_map.mp hc
  exact isSeparator_iff.mp (h d hd)

theorem isAlpha_ne_backslash {c : Char} (h : c.isAlpha = true) : c ≠ '\\' := by
  rintro rfl
  cases h

theorem isDrivePath_toSlashes (path : Path) : isDrivePath (toSlashes path) = isDrivePath path := by
  match path with
  | [] => rfl
  | [_] => rfl
  | drive :: colon :: rest =>
    by_cases hc : colon = ':'
    · subst hc
      show (if drive = '\\' then '/' else drive).isAlpha = drive.isAlpha
      by_cases hd : drive = '\\'
      · subst hd
        decide
      · rw [if_neg hd]
    rw [isDrivePath_of_ne hc]
    apply isDrivePath_of_ne
    show (if colon = '\\' then '/' else colon) ≠ ':'
    by_cases h : colon = '\\'
    · rw [if_pos h]
      decide
    · rw [if_neg h]
      exact hc

theorem upperDrive_drive {drive : Char} (h : drive.isAlpha = true) (rest : Path) :
    upperDrive (drive :: ':' :: rest) = drive.toUpper :: ':' :: rest := by
  rw [upperDrive, if_pos]
  exact h

theorem upperDrive_toSlashes (path : Path) :
    upperDrive (toSlashes path) = toSlashes (upperDrive path) := by
  cases h : isDrivePath path with
  | false =>
    rw [upperDrive_of_not h, upperDrive_of_not]
    rw [isDrivePath_toSlashes, h]
  | true =>
    obtain ⟨drive, rest, rfl, halpha⟩ := isDrivePath_iff.mp h
    have hupper := (Char.isAlpha_toUpper_eq_isAlpha drive).trans halpha
    rw [upperDrive_drive halpha, toSlashes_cons, if_neg (isAlpha_ne_backslash halpha), toSlashes_cons,
      toSlashes_cons, if_neg (isAlpha_ne_backslash hupper), toSlashes_cons]
    exact upperDrive_drive halpha _

theorem upperDrive_upperDrive (path : Path) : upperDrive (upperDrive path) = upperDrive path := by
  cases h : isDrivePath path with
  | false => rw [upperDrive_of_not h, upperDrive_of_not h]
  | true =>
    obtain ⟨drive, rest, rfl, halpha⟩ := isDrivePath_iff.mp h
    have hupper := (Char.isAlpha_toUpper_eq_isAlpha drive).trans halpha
    rw [upperDrive_drive halpha, upperDrive_drive hupper, Char.toUpper_toUpper_eq_toUpper]

section

theorem colon_not_sep (h : ∀ c ∈ seps, isSeparator c) : ':' ∉ seps := by
  intro hmem
  cases h ':' hmem

theorem isDrivePath_append (path : Path) (h : ∀ c ∈ seps, isSeparator c) :
    isDrivePath (path ++ seps) = isDrivePath path := by
  match path with
  | drive :: colon :: rest =>
    by_cases hc : colon = ':'
    · subst hc
      rfl
    · rw [isDrivePath_of_ne hc]
      exact isDrivePath_of_ne hc
  | [drive] =>
    cases seps with
    | nil => rfl
    | cons =>
      apply isDrivePath_of_ne
      rintro rfl
      exact colon_not_sep h mem_cons_self
  | [] =>
    match seps, h with
    | [], _ => rfl
    | [_], _ => rfl
    | c :: d :: cs, h =>
      apply isDrivePath_of_ne
      rintro rfl
      exact colon_not_sep h (mem_cons_of_mem _ mem_cons_self)

end

/-! ## verbatim prefixes -/

theorem after_eq_some {start path rest : Path} (h : after start path = some rest) :
    path = start ++ rest := by
  unfold after at h
  split at h
  · next hp =>
    obtain ⟨t, rfl⟩ := isPrefixOf_iff_prefix.mp hp
    rw [drop_left, Option.some.injEq] at h
    rw [h]
  · cases h

def IsVerbatim (start : Path) : Prop := start = verbatim ∨ start = slashVerbatim

theorem strip_spec (path : Path) : stripVerbatimDiskPrefix path = path ∨
    ∃ start drive rest, IsVerbatim start ∧ drive.isAlpha = true ∧
      path = start ++ drive :: ':' :: rest ∧ stripVerbatimDiskPrefix path = drive :: ':' :: rest := by
  unfold stripVerbatimDiskPrefix
  split
  · next rest h =>
    split
    · next hdrive =>
      obtain ⟨drive, t, rfl, halpha⟩ := isDrivePath_iff.mp hdrive
      obtain hv | ⟨-, hs⟩ := Option.or_eq_some_iff.mp h
      · exact .inr ⟨verbatim, drive, t, .inl rfl, halpha, after_eq_some hv, rfl⟩
      · exact .inr ⟨slashVerbatim, drive, t, .inr rfl, halpha, after_eq_some hs, rfl⟩
    · exact .inl rfl
  · exact .inl rfl

theorem strip_start {start : Path} (hstart : IsVerbatim start) {drive : Char}
    (h : drive.isAlpha = true) (rest : Path) :
    stripVerbatimDiskPrefix (start ++ drive :: ':' :: rest) = drive :: ':' :: rest := by
  obtain rfl | rfl := hstart
  · exact if_pos h
  · exact if_pos h

theorem strip_of_not_pair (h : ['/', '/'].isPrefixOf (toSlashes path) = false) :
    stripVerbatimDiskPrefix path = path := by
  obtain hsame | ⟨start, drive, rest, rfl | rfl, -, rfl, -⟩ := strip_spec path
  · exact hsame
  · exact absurd h (by simp [toSlashes, verbatim, isPrefixOf])
  · exact absurd h (by simp [toSlashes, slashVerbatim, isPrefixOf])

theorem strip_of_drive (h : isDrivePath path = true) : stripVerbatimDiskPrefix path = path := by
  obtain ⟨drive, rest, rfl, halpha⟩ := isDrivePath_iff.mp h
  apply strip_of_not_pair
  simp [toSlashes, isPrefixOf]

theorem strip_concat (path : Path) {c : Char} (h : isSeparator c = true) :
    stripVerbatimDiskPrefix (path ++ [c]) = stripVerbatimDiskPrefix path ++ [c] := by
  obtain hsame | ⟨start, drive, rest, hstart, halpha, rfl, hstrip⟩ := strip_spec path
  · rw [hsame]
    obtain hsame' | ⟨start, drive, rest, hstart, halpha, hpath, -⟩ := strip_spec (path ++ [c])
    · exact hsame'
    obtain rfl | ⟨rest', x, rfl⟩ := rest.eq_nil_or_concat
    · -- the last character is a colon
      have hlast : path ++ [c] = (start ++ [drive]) ++ [':'] := by
        rw [hpath, append_assoc]
        rfl
      have hc : c = ':' := singleton_inj.mp (append_inj_right' hlast rfl)
      subst hc
      cases h
    -- the prefix was there without the separator
    have hlast : path ++ [c] = (start ++ drive :: ':' :: rest') ++ [x] := by
      rw [hpath, concat_eq_append, append_assoc]
      rfl
    have hpath' := append_inj_left' hlast rfl
    rw [hpath', strip_start hstart halpha] at hsame
    have hlen := congrArg length hsame
    obtain rfl | rfl := hstart
    · simp [verbatim] at hlen
    · simp [slashVerbatim] at hlen
  · rw [hstrip, append_assoc]
    exact strip_start hstart halpha (rest ++ [c])

theorem strip_append (h : ∀ c ∈ seps, isSeparator c) (path : Path) :
    stripVerbatimDiskPrefix (path ++ seps) = stripVerbatimDiskPrefix path ++ seps := by
  induction seps generalizing path with
  | nil => rw [append_nil, append_nil]
  | cons c cs ih =>
    rw [forall_mem_cons] at h
    rw [append_cons, ih h.2, strip_concat path h.1, ← append_cons]

theorem strip_strip (path : Path) : stripVerbatimDiskPrefix (stripVerbatimDiskPrefix path) =
    stripVerbatimDiskPrefix path := by
  obtain hsame | ⟨start, drive, rest, -, halpha, -, hstrip⟩ := strip_spec path
  · rw [hsame, hsame]
  · rw [hstrip]
    exact strip_of_drive halpha

theorem strip_simplified (dunce : Dunce) (path : Path) :
    stripVerbatimDiskPrefix (dunce.simplified path) = stripVerbatimDiskPrefix path := by
  obtain hsame | ⟨rest, rfl, hdrive, hrest⟩ := dunce.spec path
  · rw [hsame]
  · rw [hrest, strip_of_drive hdrive]
    obtain ⟨drive, t, rfl, halpha⟩ := isDrivePath_iff.mp hdrive
    exact (strip_start (.inl rfl) halpha t).symm

/-- A verbatim prefix is seen only when its separators are all alike. -/
def MixedVerbatim (path : Path) : Prop :=
  stripVerbatimDiskPrefix path = path ∧ stripVerbatimDiskPrefix (toSlashes path) ≠ toSlashes path

theorem strip_toSlashes (h : ¬MixedVerbatim path) :
    stripVerbatimDiskPrefix (toSlashes path) = toSlashes (stripVerbatimDiskPrefix path) := by
  obtain hsame | ⟨start, drive, rest, hstart, halpha, rfl, hstrip⟩ := strip_spec path
  · rw [hsame]
    by_contra hne
    exact h ⟨hsame, hne⟩
  have hslashes : toSlashes (start ++ drive :: ':' :: rest) =
      slashVerbatim ++ drive :: ':' :: toSlashes rest := by
    rw [toSlashes_append, toSlashes_cons, if_neg (isAlpha_ne_backslash halpha)]
    obtain rfl | rfl := hstart
    · rfl
    · rfl
  rw [hslashes, strip_start (.inr rfl) halpha, hstrip, toSlashes_cons,
    if_neg (isAlpha_ne_backslash halpha)]
  rfl

section
variable {n : Nat} {l : Path}

theorem popFrom_append {seps : Path} (h : ∀ c ∈ seps, isSeparator c) (hn : n ≤ l.length) :
    popFrom n (seps ++ l) = popFrom n l := by
  induction seps with
  | nil => rfl
  | cons c cs ih =>
    rw [forall_mem_cons] at h
    rw [cons_append, popFrom, if_pos, ih h.2]
    refine ⟨?_, h.1⟩
    rw [length_append]
    omega

theorem popFrom_map (n : Nat) (l : Path) : popFrom n (toSlashes l) = toSlashes (popFrom n l) := by
  induction l with
  | nil => rfl
  | cons c cs ih =>
    rw [toSlashes_cons, popFrom, popFrom, isSeparator_toSlash, toSlashes_length]
    by_cases h : n < cs.length + 1 ∧ isSeparator c = true
    · rw [if_pos h, if_pos h, ih]
    · rw [if_neg h, if_neg h]
      rfl

theorem popFrom_of_length_le (h : l.length ≤ n) : popFrom n l = l := by
  cases l with
  | nil => rfl
  | cons =>
    rw [popFrom, if_neg]
    rw [length_cons] at h
    omega

theorem popFrom_stops (n : Nat) (l : Path) :
    (popFrom n l).length ≤ n ∨ ¬(popFrom n l).head?.any isSeparator := by
  induction l with
  | nil => exact .inl (Nat.zero_le n)
  | cons c cs ih =>
    rw [popFrom]
    split
    · exact ih
    next h =>
    by_cases hn : n < cs.length + 1
    · exact .inr fun hc => h ⟨hn, hc⟩
    · exact .inl (by rw [length_cons]; omega)

theorem popFrom_popFrom (n : Nat) (l : Path) : popFrom n (popFrom n l) = popFrom n l := by
  obtain h | h := popFrom_stops n l
  · exact popFrom_of_length_le h
  · exact popFrom_of_not_sep h

theorem le_popFrom_length (h : n ≤ l.length) : n ≤ (popFrom n l).length := by
  induction l with
  | nil => exact h
  | cons c cs ih =>
    rw [popFrom]
    split
    · next hc => exact ih (Nat.le_of_lt_succ hc.1)
    · exact h

end

/-! ## trimming -/

theorem isDrivePath_pair (drive colon : Char) (a b : Path) :
    isDrivePath (drive :: colon :: a) = isDrivePath (drive :: colon :: b) := by
  by_cases h : colon = ':'
  · subst h
    rfl
  · rw [isDrivePath_of_ne h, isDrivePath_of_ne h]

theorem minLen_three (a b c : Char) (rest : Path) :
    minLen (a :: b :: c :: rest) = minLen [a, b, c] := by
  unfold minLen
  rw [isDrivePath_pair a b (c :: rest) [c]]
  rfl

theorem minLen_le (path : Path) : minLen path ≤ path.length := by
  unfold minLen
  split
  · next h =>
    cases path with
    | nil => cases h
    | cons => exact Nat.succ_le_succ (Nat.zero_le _)
  split
  · next h =>
    rw [Bool.and_eq_true, Option.any_eq_true] at h
    obtain ⟨c, hc, -⟩ := h.2
    obtain ⟨hlt, -⟩ := List.getElem?_eq_some_iff.mp hc
    exact hlt
  · exact Nat.zero_le _

theorem minLen_of_lt (h : minLen path < 3) :
    minLen path = if path.head?.any isSeparator then 1 else 0 := by
  unfold minLen at h ⊢
  split
  · rfl
  next hhead =>
  rw [if_neg hhead] at h
  split at h
  · exact absurd h (Nat.lt_irrefl 3)
  · next hdrive => rw [if_neg hdrive]

theorem minLen_append {path seps : Path} (h : minLen (path ++ seps) ≤ path.length) :
    minLen path = minLen (path ++ seps) := by
  have hshort : ∀ a rest, path = a :: rest → path.length < 3 →
      minLen path = minLen (path ++ seps) := by
    rintro a rest rfl hlt
    rw [minLen_of_lt (Nat.lt_of_le_of_lt (minLen_le _) hlt), minLen_of_lt (Nat.lt_of_le_of_lt h hlt)]
    rfl
  match path, h, hshort with
  | [], h, _ => exact (Nat.le_zero.mp h).symm
  | [a], _, hshort => exact hshort a [] rfl (by simp)
  | [a, b], _, hshort => exact hshort a [b] rfl (by simp)
  | a :: b :: c :: rest, _, _ =>
    show minLen (a :: b :: c :: rest) = minLen (a :: b :: c :: (rest ++ seps))
    rw [minLen_three, minLen_three a b c (rest ++ seps)]

theorem isShareRoot_toSlashes (path : Path) : isShareRoot (toSlashes path) = isShareRoot path := by
  unfold isShareRoot
  rw [toSlashes_toSlashes]

theorem minLen_toSlashes (path : Path) : minLen (toSlashes path) = minLen path := by
  have hsep : ∀ o : Option Char, (o.map fun c => if c = '\\' then '/' else c).any isSeparator =
      o.any isSeparator := by
    intro o
    cases o with
    | none => rfl
    | some c => exact isSeparator_toSlash c
  unfold minLen
  rw [isDrivePath_toSlashes, toSlashes, head?_map, getElem?_map, hsep, hsep]

theorem trim_of_root (h : isShareRoot path = true) :
    trimTrailingSeparators path = path := if_pos (.inr h)

theorem trim_of_not_root (h : isShareRoot path = false) :
    trimTrailingSeparators path = (popFrom (minLen path) path.reverse).reverse := by
  unfold trimTrailingSeparators
  by_cases hnil : path = []
  · rw [if_pos (.inl hnil), hnil]
    rfl
  rw [if_neg]
  rintro (h' | h')
  · exact hnil h'
  · rw [h] at h'
    cases h'

theorem trim_toSlashes (path : Path) :
    trimTrailingSeparators (toSlashes path) = toSlashes (trimTrailingSeparators path) := by
  have hreverse : ∀ l : Path, (toSlashes l).reverse = toSlashes l.reverse :=
    fun l => (map_reverse ..).symm
  cases h : isShareRoot path with
  | true =>
    rw [trim_of_root h, trim_of_root]
    rw [isShareRoot_toSlashes, h]
  | false =>
    rw [trim_of_not_root h, trim_of_not_root, minLen_toSlashes, hreverse, popFrom_map, hreverse]
    rw [isShareRoot_toSlashes, h]

theorem trim_spec (path : Path) :
    ∃ seps, path = trimTrailingSeparators path ++ seps ∧ ∀ c ∈ seps, isSeparator c := by
  cases h : isShareRoot path with
  | true =>
    rw [trim_of_root h]
    exact ⟨[], (append_nil _).symm, nofun⟩
  | false =>
    rw [trim_of_not_root h]
    obtain ⟨seps, hl, hseps⟩ := popFrom_spec (minLen path) path.reverse
    refine ⟨seps.reverse, ?_, fun c hc => hseps c (mem_reverse.mp hc)⟩
    rw [← reverse_append, ← hl, reverse_reverse]

theorem trim_of_not_sep (h : ¬path.getLast?.any isSeparator) :
    trimTrailingSeparators path = path := by
  cases hroot : isShareRoot path with
  | true => exact trim_of_root hroot
  | false =>
    rw [trim_of_not_root hroot, popFrom_of_not_sep, reverse_reverse]
    rw [head?_reverse]
    exact h

theorem isDrivePath_trim (path : Path) :
    isDrivePath (trimTrailingSeparators path) = isDrivePath path := by
  obtain ⟨seps, hpath, hseps⟩ := trim_spec path
  have happend := isDrivePath_append (trimTrailingSeparators path) hseps
  rw [← hpath] at happend
  exact happend.symm

theorem minLen_le_trim (path : Path) : minLen path ≤ (trimTrailingSeparators path).length := by
  cases h : isShareRoot path with
  | true =>
    rw [trim_of_root h]
    exact minLen_le path
  | false =>
    rw [trim_of_not_root h, length_reverse]
    apply le_popFrom_length
    rw [length_reverse]
    exact minLen_le path

theorem minLen_trim (path : Path) : minLen (trimTrailingSeparators path) = minLen path := by
  obtain ⟨seps, hpath, -⟩ := trim_spec path
  have hle := minLen_le_trim path
  generalize trimTrailingSeparators path = trimmed at hpath hle ⊢
  subst hpath
  exact minLen_append hle

theorem trim_trim (path : Path) :
    trimTrailingSeparators (trimTrailingSeparators path) = trimTrailingSeparators path := by
  cases hagain : isShareRoot (trimTrailingSeparators path) with
  | true => exact trim_of_root hagain
  | false =>
    rw [trim_of_not_root hagain, minLen_trim]
    cases h : isShareRoot path with
    | true =>
      rw [trim_of_root h, h] at hagain
      cases hagain
    | false => rw [trim_of_not_root h, reverse_reverse, popFrom_popFrom]

/-! ## normal forms -/

/-- the normal form without `dunce` -/
def normal (path : Path) : Path := trimTrailingSeparators (upperDrive (stripVerbatimDiskPrefix path))

theorem normalizeProjectPath_eq (dunce : Dunce) (path : Path) :
    normalizeProjectPath dunce path = normal path := by
  unfold normalizeProjectPath normal
  rw [strip_simplified]

theorem normal_toSlashes (h : ¬MixedVerbatim path) :
    normal (toSlashes path) = toSlashes (normal path) := by
  unfold normal
  rw [strip_toSlashes h, upperDrive_toSlashes, trim_toSlashes]

theorem upperDrive_append (h : ∀ c ∈ seps, isSeparator c) (path : Path) :
    upperDrive (path ++ seps) = upperDrive path ++ seps := by
  cases hdrive : isDrivePath path with
  | false =>
    rw [upperDrive_of_not hdrive, upperDrive_of_not]
    rw [isDrivePath_append path h, hdrive]
  | true =>
    obtain ⟨drive, rest, rfl, halpha⟩ := isDrivePath_iff.mp hdrive
    rw [upperDrive_drive halpha]
    exact upperDrive_drive halpha (rest ++ seps)

theorem strip_upperDrive (path : Path) :
    stripVerbatimDiskPrefix (upperDrive (stripVerbatimDiskPrefix path)) =
      upperDrive (stripVerbatimDiskPrefix path) := by
  cases h : isDrivePath (stripVerbatimDiskPrefix path) with
  | false => rw [upperDrive_of_not h, strip_strip]
  | true =>
    apply strip_of_drive
    rw [isDrivePath_upperDrive, h]

theorem strip_normal (path : Path) : stripVerbatimDiskPrefix (normal path) = normal path := by
  obtain ⟨seps, hvalue, hseps⟩ := trim_spec (upperDrive (stripVerbatimDiskPrefix path))
  have hstrip := strip_upperDrive path
  rw [hvalue, strip_append hseps] at hstrip
  exact append_cancel_right hstrip

theorem upperDrive_normal (path : Path) : upperDrive (normal path) = normal path := by
  obtain ⟨seps, hvalue, hseps⟩ := trim_spec (upperDrive (stripVerbatimDiskPrefix path))
  have hupper := upperDrive_upperDrive (stripVerbatimDiskPrefix path)
  rw [hvalue, upperDrive_append hseps] at hupper
  exact append_cancel_right hupper

theorem normal_normal (path : Path) : normal (normal path) = normal path := by
  rw [normal, strip_normal, upperDrive_normal]
  exact trim_trim _

theorem isDrivePath_normal (path : Path) :
    isDrivePath (normal path) = isDrivePath (stripVerbatimDiskPrefix path) := by
  rw [normal, isDrivePath_trim, isDrivePath_upperDrive]

theorem trimEndSlashes_replicate (path : Path) (k : Nat) :
    trimEndSlashes (path ++ List.replicate k '/') = trimEndSlashes path := by
  induction k with
  | zero => rw [replicate_zero, append_nil]
  | succ k ih =>
    rw [replicate_succ', ← append_assoc]
    unfold trimEndSlashes at ih ⊢
    rw [rdropWhile_concat_pos _ _ _ (by simp), ih]

theorem trimEndSlashes_verbatim (rest : Path) : trimEndSlashes (slashVerbatim ++ rest) =
    if trimEndSlashes rest = [] then ['/', '/', '?'] else slashVerbatim ++ trimEndSlashes rest := by
  show trimEndSlashes ('/' :: '/' :: '?' :: '/' :: rest) = _
  rw [trimEndSlashes_slash, trimEndSlashes_slash, trimEndSlashes_cons (by decide),
    trimEndSlashes_slash]
  by_cases h : trimEndSlashes rest = []
  · rw [if_pos h, if_pos h]
    rfl
  · rw [if_neg h, if_neg h]
    rfl

theorem isShareRoot_eq (path : Path) : isShareRoot path =
    (['/', '/'].isPrefixOf (trimEndSlashes (toSlashes path)) &&
      !slashVerbatim.isPrefixOf (trimEndSlashes (toSlashes path)) &&
      decide (((trimStartPairs (trimEndSlashes (toSlashes path))).splitOn '/').length = 2)) := by
  unfold isShareRoot
  generalize toSlashes path = slashPath
  dsimp only
  by_cases hnil : trimEndSlashes slashPath = []
  · rw [hnil]
    split
    · rfl
    · decide
  rw [trimEndSlashes_pair hnil]
  cases hpair : ['/', '/'].isPrefixOf slashPath with
  | false => rfl
  | true =>
    cases hverbatim : slashVerbatim.isPrefixOf slashPath with
    | true =>
      obtain ⟨rest, rfl⟩ := isPrefixOf_iff_prefix.mp hverbatim
      rw [trimEndSlashes_verbatim, if_pos (Bool.or_true _)]
      by_cases hrest : trimEndSlashes rest = []
      · rw [if_pos hrest]
        decide
      · rw [if_neg hrest]
        rfl
    | false =>
      have hnot : slashVerbatim.isPrefixOf (trimEndSlashes slashPath) = false := by
        rw [Bool.eq_false_iff]
        intro h
        have hlong := (List.isPrefixOf_iff_prefix.mp h).trans (List.rdropWhile_prefix _ slashPath)
        rw [List.isPrefixOf_iff_prefix.mpr hlong] at hverbatim
        cases hverbatim
      rw [hnot]
      simp

theorem isShareRoot_append (h : ∀ c ∈ seps, isSeparator c) (path : Path) :
    isShareRoot (path ++ seps) = isShareRoot path := by
  rw [isShareRoot_eq, isShareRoot_eq, toSlashes_append, toSlashes_seps h, trimEndSlashes_replicate]

theorem trim_append {path seps : Path} (h : ∀ c ∈ seps, isSeparator c)
    (hroot : isShareRoot path = false) (hlen : minLen (path ++ seps) ≤ path.length) :
    trimTrailingSeparators (path ++ seps) = trimTrailingSeparators path := by
  have hseps : ∀ c ∈ seps.reverse, isSeparator c = true := by
    intro c hc
    exact h c (mem_reverse.mp hc)
  rw [trim_of_not_root hroot, trim_of_not_root, ← minLen_append hlen, reverse_append,
    popFrom_append hseps]
  · rw [length_reverse, minLen_append hlen]
    exact hlen
  · rw [isShareRoot_append h, hroot]

end CcPanes.Identity

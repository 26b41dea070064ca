import CcPanes.Identity.NormalForms

/-!
# One drive, three forms

The canonical path of a drive path (`canonical_drive`), of the mounted drive (`canonical_mnt`) and of
its WSL share (`canonical_wsl`).  The first two leave repeated separators in the tail, the third does
not; the three are the same when there are none (`trimSlashes_join`).
-/

namespace CcPanes.Identity
open List

variable {drive : Char} {rest : Path} {c : Char} {distro : Path}

/-! ## the slashes around a tail -/

theorem trimStartSlashes_slash (path : Path) :
    trimStartSlashes ('/' :: path) = trimStartSlashes path := rfl

theorem trimStartSlashes_cons (h : c ≠ '/') (path : Path) :
    trimStartSlashes (c :: path) = c :: path := by
  unfold trimStartSlashes
  simpa using h

theorem trimStartSlashes_idem (path : Path) :
    trimStartSlashes (trimStartSlashes path) = trimStartSlashes path :=
  dropWhile_idempotent ..

theorem trimSlashes_slash (path : Path) : trimSlashes ('/' :: path) = trimSlashes path := rfl

theorem trimSlashes_trimStart (path : Path) :
    trimSlashes (trimStartSlashes path) = trimSlashes path := by
  unfold trimSlashes
  rw [trimStartSlashes_idem]

theorem trimSlashes_replicate (path : Path) (k : Nat) :
    trimSlashes (path ++ List.replicate k '/') = trimSlashes path := by
  induction path with
  | nil =>
    have hempty : trimStartSlashes (replicate k '/') = [] := by
      unfold trimStartSlashes
      rw [dropWhile_eq_nil_iff]
      intro c hc
      exact decide_eq_true (eq_of_mem_replicate hc)
    show trimEndSlashes (trimStartSlashes (replicate k '/')) = _
    rw [hempty]
    rfl
  | cons c cs ih =>
    by_cases h : c = '/'
    · subst h
      exact ih
    · unfold trimSlashes
      rw [cons_append, trimStartSlashes_cons h, trimStartSlashes_cons h, ← cons_append,
        trimEndSlashes_replicate]

theorem trimSlashes_trimSlashes (path : Path) : trimSlashes (trimSlashes path) = trimSlashes path := by
  have hend : ∀ l : Path, trimEndSlashes (trimEndSlashes l) = trimEndSlashes l :=
    fun l => rdropWhile_idempotent _ l
  unfold trimSlashes
  have hstart : trimStartSlashes (trimEndSlashes (trimStartSlashes path)) =
      trimEndSlashes (trimStartSlashes path) := by
    have hidem := trimStartSlashes_idem path
    cases hcs : trimStartSlashes path with
    | nil => rfl
    | cons c cs =>
      have hc : c ≠ '/' := by
        rintro rfl
        rw [hcs, trimStartSlashes_slash] at hidem
        have hlen := (dropWhile_suffix (l := cs) fun c => decide (c = '/')).length_le
        have hsame := congrArg length hidem
        rw [length_cons] at hsame
        unfold trimStartSlashes at hsame
        omega
      rw [trimEndSlashes_cons hc, trimStartSlashes_cons hc]
  rw [hstart, hend]

theorem not_mem_trimSlashes {path : Path} (h : c ∉ path) : c ∉ trimSlashes path := by
  intro hc
  exact h ((dropWhile_suffix _).subset ((List.rdropWhile_prefix _ _).subset hc))

theorem toSlashes_toBackslashes (path : Path) : toSlashes (toBackslashes path) = toSlashes path := by
  unfold toSlashes toBackslashes
  rw [map_map]
  apply map_congr_left
  intro c _
  by_cases h : c = '/'
  · subst h
    rfl
  · show (if (if c = '/' then '\\' else c) = '\\' then '/' else (if c = '/' then '\\' else c)) = _
    rw [if_neg h]

theorem formatDrivePath_eq (drive : Char) (tail : Path) :
    formatDrivePath drive tail = drive :: ':' :: '\\' :: toBackslashes (trimSlashes tail) := by
  unfold formatDrivePath
  dsimp only
  split
  · next h =>
    rw [h]
    rfl
  · rfl

theorem formatDrivePath_congr {a b : Path} (h : trimSlashes a = trimSlashes b) :
    formatDrivePath drive a = formatDrivePath drive b := by
  rw [formatDrivePath_eq, formatDrivePath_eq, h]

theorem not_ssh_of_colon (rest : Path) : isSshUrl (drive :: ':' :: rest) = false := by
  apply decide_eq_false
  intro h
  have hsecond := (cons.inj (cons.inj h).2).1
  cases hsecond

variable (dunce : Dunce)

theorem canonicalProjectPath_eq {path : Path} (h : isSshUrl path = false) :
    canonicalProjectPath dunce path = recognised (toSlashes (normal path)) := by
  unfold canonicalProjectPath
  rw [h, if_neg Bool.false_ne_true, normalizeProjectPath_eq]

theorem recognised_drive (h : drive.isAlpha = true) (tail : Path) :
    recognised (drive :: ':' :: '/' :: tail) = formatDrivePath drive.toUpper tail := by
  have hwindows : canonicalWindowsDrivePath (drive :: ':' :: '/' :: tail) =
      some (formatDrivePath drive.toUpper (trimStartSlashes tail)) := by
    rw [canonicalWindowsDrivePath, if_pos h]
    rfl
  rw [recognised, hwindows, Option.getD_some]
  exact formatDrivePath_congr (trimSlashes_trimStart tail)

theorem windows_of_not_drive {path : Path} (h : isDrivePath path = false) :
    canonicalWindowsDrivePath path = none := by
  unfold canonicalWindowsDrivePath
  split
  · next drive rest =>
    rw [if_neg]
    intro halpha
    rw [isDrivePath, halpha] at h
    cases h
  · rfl

theorem trim_front (front rest : Path)
    (h : front.length ≤ (trimTrailingSeparators (front ++ rest)).length) :
    ∃ kept seps, trimTrailingSeparators (front ++ rest) = front ++ kept ∧ rest = kept ++ seps ∧
      ∀ c ∈ seps, isSeparator c := by
  obtain ⟨seps, hpath, hseps⟩ := trim_spec (front ++ rest)
  generalize trimTrailingSeparators (front ++ rest) = trimmed at h hpath
  obtain ⟨kept, rfl⟩ : front <+: trimmed :=
    prefix_of_prefix_length_le (prefix_append front rest) ⟨seps, hpath.symm⟩ h
  rw [append_assoc] at hpath
  exact ⟨kept, seps, rfl, append_cancel_left hpath, hseps⟩

theorem length_le_trim (front : Path) (h : isSeparator c = false) (rest : Path) :
    (front ++ [c]).length ≤ (trimTrailingSeparators ((front ++ [c]) ++ rest)).length := by
  obtain ⟨seps, hpath, hseps⟩ := trim_spec ((front ++ [c]) ++ rest)
  generalize trimTrailingSeparators ((front ++ [c]) ++ rest) = trimmed at hpath
  by_contra hlt
  rw [length_append, length_singleton] at hlt
  obtain ⟨z, rfl⟩ : trimmed <+: front :=
    prefix_of_prefix_length_le ⟨seps, hpath.symm⟩
      (by rw [append_assoc]; exact prefix_append ..) (by omega)
  rw [append_assoc, append_assoc] at hpath
  have htail := append_cancel_left hpath
  have hc : isSeparator c = true := by
    apply hseps
    rw [← htail]
    simp
  rw [h] at hc
  cases hc

/-! ## one drive, three forms -/

theorem trimSlashes_kept {kept seps : Path} (h : ∀ c ∈ seps, isSeparator c) :
    trimSlashes (toSlashes (kept ++ seps)) = trimSlashes (toSlashes kept) := by
  rw [toSlashes_append, toSlashes_seps h, trimSlashes_replicate]

theorem isAlpha_not_sep (h : c.isAlpha = true) : isSeparator c = false := by
  cases hsep : isSeparator c with
  | false => rfl
  | true =>
    unfold isSeparator at hsep
    simp only [Bool.or_eq_true, decide_eq_true_eq] at hsep
    obtain rfl | rfl := hsep <;> cases h

theorem normal_drive (halpha : drive.isAlpha = true) {sep : Char} (hsep : isSeparator sep = true)
    (tail : Path) :
    ∃ kept seps, toSlashes (normal (drive :: ':' :: sep :: tail)) =
        drive.toUpper :: ':' :: '/' :: toSlashes kept ∧
      tail = kept ++ seps ∧ ∀ c ∈ seps, isSeparator c := by
  have hupper := (Char.isAlpha_toUpper_eq_isAlpha drive).trans halpha
  have hmin : minLen (drive.toUpper :: ':' :: sep :: tail) = 3 := by
    have hdrive := isAlpha_not_sep hupper
    unfold minLen
    simp [hdrive, isDrivePath, hupper, hsep]
  have hle := minLen_le_trim (drive.toUpper :: ':' :: sep :: tail)
  rw [hmin] at hle
  obtain ⟨kept, seps, htrim, rfl, hseps⟩ := trim_front [drive.toUpper, ':', sep] tail hle
  refine ⟨kept, seps, ?_, rfl, hseps⟩
  have hslash : (if sep = '\\' then '/' else sep) = '/' := isSeparator_iff.mp hsep
  have hdrive : isDrivePath (drive :: ':' :: sep :: (kept ++ seps)) = true := halpha
  rw [normal, strip_of_drive hdrive, upperDrive_drive halpha]
  show toSlashes (trimTrailingSeparators ([drive.toUpper, ':', sep] ++ (kept ++ seps))) = _
  rw [htrim]
  show (if drive.toUpper = '\\' then '/' else drive.toUpper) :: ':' ::
    (if sep = '\\' then '/' else sep) :: toSlashes kept = _
  rw [if_neg (isAlpha_ne_backslash hupper), hslash]

theorem canonical_drive (halpha : drive.isAlpha = true) {sep : Char}
    (hsep : isSeparator sep = true) (tail : Path) :
    canonicalProjectPath dunce (drive :: ':' :: sep :: tail) =
      formatDrivePath drive.toUpper (toSlashes tail) := by
  have hupper := (Char.isAlpha_toUpper_eq_isAlpha drive).trans halpha
  obtain ⟨kept, seps, hnormal, rfl, hseps⟩ := normal_drive halpha hsep tail
  rw [canonicalProjectPath_eq dunce (not_ssh_of_colon _), hnormal, recognised_drive hupper,
    Char.toUpper_toUpper_eq_toUpper]
  exact formatDrivePath_congr (trimSlashes_kept hseps).symm

theorem recognised_mnt (h : drive.isAlpha = true) (hrest : rest = [] ∨ ∃ tail, rest = '/' :: tail) :
    recognised ("/mnt/".toList ++ drive :: rest) = formatDrivePath drive.toUpper rest := by
  have hmnt : canonicalMntDrivePath ("/mnt/".toList ++ drive :: rest) =
      some (formatDrivePath drive.toUpper (trimStartSlashes rest)) := by
    have hafter : after "/mnt/".toList ("/mnt/".toList ++ drive :: rest) = some (drive :: rest) := rfl
    have hnone : rest.head?.any (fun c => decide (c ≠ '/')) = false := by
      obtain rfl | ⟨tail, rfl⟩ := hrest
      · rfl
      · rfl
    rw [canonicalMntDrivePath, hafter]
    dsimp only
    rw [h, hnone]
    rfl
  rw [recognised, windows_of_not_drive rfl, Option.getD_none, hmnt, Option.getD_some]
  exact formatDrivePath_congr (trimSlashes_trimStart rest)

theorem toSlashes_kept {kept seps : Path} (h : (kept ++ seps).head?.all isSeparator = true) :
    toSlashes kept = [] ∨ ∃ tail, toSlashes kept = '/' :: tail := by
  cases kept with
  | nil => exact .inl rfl
  | cons c cs =>
    have hc : isSeparator c = true := h
    exact .inr ⟨toSlashes cs, by rw [toSlashes_cons, isSeparator_iff.mp hc]⟩

theorem canonical_mnt (halpha : drive.isAlpha = true) (hrest : rest.head?.all isSeparator = true) :
    canonicalProjectPath dunce ("/mnt/".toList ++ drive :: rest) =
      formatDrivePath drive.toUpper (toSlashes rest) := by
  obtain ⟨kept, seps, htrim, rfl, hseps⟩ := trim_front _ rest
    (length_le_trim "/mnt/".toList (isAlpha_not_sep halpha) rest)
  have hpath : "/mnt/".toList ++ drive :: (kept ++ seps) =
      ("/mnt/".toList ++ [drive]) ++ (kept ++ seps) := rfl
  have hnormal : toSlashes (normal ("/mnt/".toList ++ drive :: (kept ++ seps))) =
      "/mnt/".toList ++ drive :: toSlashes kept := by
    rw [normal, strip_of_not_pair rfl, upperDrive_of_not rfl, hpath, htrim]
    show "/mnt/".toList ++ (if drive = '\\' then '/' else drive) :: toSlashes kept = _
    rw [if_neg (isAlpha_ne_backslash halpha)]
  rw [canonicalProjectPath_eq dunce (not_ssh_of_slash rfl), hnormal,
    recognised_mnt halpha (toSlashes_kept hrest)]
  exact formatDrivePath_congr (trimSlashes_kept hseps).symm

/-! ## the parts of a tail -/

def fullParts (path : Path) : List Path := (path.splitOn '/').filter fun part => part ≠ []

theorem fullParts_slash (path : Path) : fullParts ('/' :: path) = fullParts path := by
  unfold fullParts
  rw [splitOn_slash, filter_cons_of_neg]
  simp

theorem splitOn_replicate (path : Path) (k : Nat) :
    (path ++ List.replicate k '/').splitOn '/' = path.splitOn '/' ++ List.replicate k [] := by
  induction k with
  | zero => rw [replicate_zero, append_nil, replicate_zero, append_nil]
  | succ k ih =>
    rw [replicate_succ', ← append_assoc, splitOn_append_cons_self, ih,
      splitOn_nil, append_assoc, ← replicate_succ']

theorem filter_replicate_nil (k : Nat) :
    (List.replicate k ([] : Path)).filter (fun part => part ≠ []) = [] := by
  rw [filter_eq_nil_iff]
  intro part hpart
  simp [eq_of_mem_replicate hpart]

theorem fullParts_replicate (path : Path) (k : Nat) :
    fullParts (path ++ List.replicate k '/') = fullParts path := by
  unfold fullParts
  rw [splitOn_replicate, filter_append, filter_replicate_nil, append_nil]

theorem fullParts_trimEnd (path : Path) : fullParts (trimEndSlashes path) = fullParts path := by
  have hslashes : ∃ k, path = trimEndSlashes path ++ replicate k '/' := by
    refine ⟨(path.rtakeWhile fun c => c = '/').length, ?_⟩
    have hall : path.rtakeWhile (fun c => c = '/') =
        replicate (path.rtakeWhile fun c => c = '/').length '/' := by
      rw [eq_replicate_iff]
      refine ⟨rfl, fun c hc => ?_⟩
      simpa using mem_rtakeWhile_imp hc
    rw [← hall]
    exact rdropWhile_append_rtakeWhile.symm
  obtain ⟨k, hk⟩ := hslashes
  conv_rhs => rw [hk]
  exact (fullParts_replicate _ k).symm

theorem fullParts_trimSlashes (path : Path) : fullParts (trimSlashes path) = fullParts path := by
  induction path with
  | nil => rfl
  | cons c cs ih =>
    by_cases h : c = '/'
    · subst h
      rw [trimSlashes_slash, ih, fullParts_slash]
    · unfold trimSlashes
      rw [trimStartSlashes_cons h, fullParts_trimEnd]

def Collapsed (tail : Path) : Prop :=
  trimSlashes (toSlashes tail) = [] ∨ [] ∉ (trimSlashes (toSlashes tail)).splitOn '/'

theorem trimSlashes_join {tail : Path} (h : Collapsed tail) :
    trimSlashes (join '/' (fullParts (toSlashes tail))) = trimSlashes (toSlashes tail) := by
  rw [← fullParts_trimSlashes]
  obtain hnil | hfull := h
  · rw [hnil]
    rfl
  have hall : fullParts (trimSlashes (toSlashes tail)) =
      (trimSlashes (toSlashes tail)).splitOn '/' := by
    unfold fullParts
    rw [filter_eq_self]
    intro part hpart
    apply decide_eq_true
    rintro rfl
    exact hfull hpart
  rw [hall]
  unfold join
  rw [intercalate_splitOn, trimSlashes_trimSlashes]

/-! ## paths of a WSL share -/

theorem mnt_of_pair (rest : Path) : canonicalMntDrivePath ('/' :: '/' :: rest) = none := by
  have hafter : after "/mnt/".toList ('/' :: '/' :: rest) = none := rfl
  rw [canonicalMntDrivePath, hafter]

theorem strip_of_third {a b c : Char} (h : c ≠ '?') (rest : Path) :
    stripVerbatimDiskPrefix (a :: b :: c :: rest) = a :: b :: c :: rest := by
  obtain hsame | ⟨start, drive, rest', rfl | rfl, -, hpath, -⟩ := strip_spec (a :: b :: c :: rest)
  · exact hsame
  · exact absurd (cons.inj (cons.inj (cons.inj hpath).2).2).1 h
  · exact absurd (cons.inj (cons.inj (cons.inj hpath).2).2).1 h

def wslShare : Path := "\\\\wsl$\\".toList

structure IsDistro (distro : Path) : Prop where
  nonempty : distro ≠ []
  whole : ∀ c ∈ distro, isSeparator c = false

theorem toSlashes_distro (h : ∀ c ∈ distro, isSeparator c = false) :
    '/' ∉ distro ∧ toSlashes distro = distro := by
  constructor
  · intro hc
    cases h '/' hc
  · apply toSlashes_eq_self
    intro hc
    cases h '\\' hc

theorem recognised_wsl (hdistro : IsDistro distro) (halpha : drive.isAlpha = true)
    (hrest : rest = [] ∨ ∃ tail, rest = '/' :: tail) :
    recognised ("//wsl$/".toList ++ distro ++ "/mnt/".toList ++ drive :: rest) =
      formatDrivePath drive.toUpper (join '/' (fullParts rest)) := by
  have hnot : '/' ∉ [drive] := by
    intro h
    rw [mem_singleton] at h
    subst h
    cases halpha
  have hparts : ((drive :: rest).splitOn '/').filter (fun part => part ≠ []) =
      [drive] :: fullParts rest := by
    obtain rfl | ⟨tail, rfl⟩ := hrest
    · rw [splitOn_eq_singleton hnot]
      rfl
    have hsplit : (drive :: '/' :: tail).splitOn '/' = [drive] :: tail.splitOn '/' :=
      splitOn_append_cons_self_of_not_mem hnot tail
    rw [hsplit, fullParts_slash, filter_cons_of_pos (by simp)]
    rfl
  have hsplit : ("wsl$/".toList ++ distro ++ "/mnt/".toList ++ drive :: rest).splitOn '/' =
      "wsl$".toList :: distro :: "mnt".toList :: (drive :: rest).splitOn '/' := by
    have hshape : "wsl$/".toList ++ distro ++ "/mnt/".toList ++ drive :: rest =
        "wsl$".toList ++ '/' :: (distro ++ '/' :: ("mnt".toList ++ '/' :: (drive :: rest))) := by
      simp
    rw [hshape, splitOn_append_cons_self_of_not_mem (by decide),
      splitOn_append_cons_self_of_not_mem (toSlashes_distro hdistro.whole).1,
      splitOn_append_cons_self_of_not_mem (by decide)]
  have hwsl : canonicalWslUncPath ("//wsl$/".toList ++ distro ++ "/mnt/".toList ++ drive :: rest) =
      some (formatDrivePath drive.toUpper (join '/' (fullParts rest))) := by
    have hafter : after "//".toList ("//wsl$/".toList ++ distro ++ "/mnt/".toList ++ drive :: rest) =
        some ("wsl$/".toList ++ distro ++ "/mnt/".toList ++ drive :: rest) := rfl
    have hserver : matchesWslServer "wsl$".toList = true := by decide
    rw [canonicalWslUncPath, hafter, Option.map_some, hsplit]
    dsimp only
    rw [hserver, if_neg hdistro.nonempty, filter_cons_of_pos (by decide), hparts]
    simp [mountedDrive, singleDriveLetter, halpha]
  have hmnt : canonicalMntDrivePath ("//wsl$/".toList ++ distro ++ "/mnt/".toList ++ drive :: rest) =
      none := mnt_of_pair _
  rw [recognised, windows_of_not_drive rfl, Option.getD_none, hmnt, Option.getD_none, hwsl,
    Option.getD_some]

theorem canonical_wsl (hdistro : IsDistro distro) (halpha : drive.isAlpha = true)
    (hrest : rest.head?.all isSeparator = true) :
    canonicalProjectPath dunce (wslShare ++ distro ++ "\\mnt\\".toList ++ drive :: rest) =
      formatDrivePath drive.toUpper (join '/' (fullParts (toSlashes rest))) := by
  obtain ⟨kept, seps, htrim, rfl, hseps⟩ := trim_front _ rest
    (length_le_trim (wslShare ++ distro ++ "\\mnt\\".toList) (isAlpha_not_sep halpha) rest)
  have hpath : wslShare ++ distro ++ "\\mnt\\".toList ++ drive :: (kept ++ seps) =
      (wslShare ++ distro ++ "\\mnt\\".toList ++ [drive]) ++ (kept ++ seps) := by
    simp
  have hstrip : stripVerbatimDiskPrefix
      (wslShare ++ distro ++ "\\mnt\\".toList ++ drive :: (kept ++ seps)) =
        wslShare ++ distro ++ "\\mnt\\".toList ++ drive :: (kept ++ seps) :=
    strip_of_third (by decide) _
  have hnormal : toSlashes (normal
      (wslShare ++ distro ++ "\\mnt\\".toList ++ drive :: (kept ++ seps))) =
        "//wsl$/".toList ++ distro ++ "/mnt/".toList ++ drive :: toSlashes kept := by
    rw [normal, hstrip, upperDrive_of_not rfl, hpath, htrim]
    simp only [toSlashes_append, (toSlashes_distro hdistro.whole).2, append_assoc]
    show "//wsl$/".toList ++ (distro ++ ("/mnt/".toList ++
      (if drive = '\\' then '/' else drive) :: toSlashes kept)) = _
    rw [if_neg (isAlpha_ne_backslash halpha)]
  have hssh : isSshUrl (wslShare ++ distro ++ "\\mnt\\".toList ++ drive :: (kept ++ seps)) = false :=
    not_ssh_of_slash rfl
  rw [canonicalProjectPath_eq dunce hssh, hnormal,
    recognised_wsl hdistro halpha (toSlashes_kept hrest), toSlashes_append, toSlashes_seps hseps,
    fullParts_replicate]

end CcPanes.Identity

import CcPanes.Foundation.Separated
import CcPanes.Identity.CanonicalPaths

/-!
# The identity of a project

The canonical path of a canonical path is itself (`canonical_canonical`), and the key of a project
does not depend on how its path is written (`identityLaws`): but for roots, verbatim prefixes with
mixed separators, repeated separators in a WSL share, and drives without a separator.
-/

namespace CcPanes.Identity
open List Option

variable {slashPath canonical : Path} {parts : List Path} {path : Path}

/-! ## the forms of a canonical path -/

inductive Form (slashPath : Path) : Path → Prop
  | bare (drive : Char) : slashPath = [drive, ':'] → drive.isAlpha = true →
      Form slashPath [drive.toUpper, ':']
  | drive (drive : Char) (tail : Path) : drive.isAlpha = true → '\\' ∉ tail →
      Form slashPath (formatDrivePath drive.toUpper tail)
  | wsl (distro : Path) (parts : List Path) : IsDistro distro → (∀ part ∈ parts, IsDistro part) →
      mountedDrive parts = none → Form slashPath (wslPath distro parts)
  | unc : ['/', '/'].isPrefixOf slashPath = true → Form slashPath (toBackslashes slashPath)
  | same : canonicalWindowsDrivePath slashPath = none → Form slashPath slashPath

theorem windows_form (hslash : '\\' ∉ slashPath)
    (h : canonicalWindowsDrivePath slashPath = some canonical) : Form slashPath canonical := by
  unfold canonicalWindowsDrivePath at h
  split at h
  · next drive rest =>
    cases halpha : drive.isAlpha with
    | false =>
      rw [halpha] at h
      cases h
    | true =>
      rw [halpha, if_pos rfl] at h
      split at h
      · next hrest =>
        subst hrest
        cases h
        exact .bare drive rfl halpha
      split at h
      · cases h
      cases h
      apply Form.drive drive _ halpha
      intro hc
      have hmem := (dropWhile_suffix _).subset hc
      exact hslash (mem_cons_of_mem _ (mem_cons_of_mem _ hmem))
  · cases h

theorem mnt_form (hslash : '\\' ∉ slashPath)
    (h : canonicalMntDrivePath slashPath = some canonical) : Form slashPath canonical := by
  unfold canonicalMntDrivePath at h
  split at h
  · next drive rest hafter =>
    have hpath := after_eq_some hafter
    cases halpha : drive.isAlpha with
    | false =>
      rw [halpha] at h
      cases h
    | true =>
      rw [halpha, Bool.not_true, if_neg Bool.false_ne_true] at h
      split at h
      · cases h
      cases h
      apply Form.drive drive _ halpha
      intro hc
      have hmem := (dropWhile_suffix _).subset hc
      apply hslash
      rw [hpath]
      exact mem_append_right _ (mem_cons_of_mem _ hmem)
  · cases h

theorem isDistro_of_mem {path part : Path} (hslash : '\\' ∉ path)
    (hpart : part ∈ path.splitOn '/') (hne : part ≠ []) : IsDistro part := by
  refine ⟨hne, fun c hc => ?_⟩
  obtain ⟨hmem, hnot⟩ := Separated.mem_of_mem_splitOn hpart hc
  unfold isSeparator
  have hback : c ≠ '\\' := by
    rintro rfl
    exact hslash hmem
  simp [hnot, hback]

theorem mountedDrive_some {parts tail : List Path} {drive : Char}
    (h : mountedDrive parts = some (drive, tail)) :
    ∃ c, parts = "mnt".toList :: [c] :: tail ∧ c.isAlpha = true ∧ drive = c.toUpper := by
  unfold mountedDrive at h
  split at h
  · next mnt name tail' =>
    split at h
    · next hmnt =>
      obtain ⟨d, hd, heq⟩ := map_eq_some_iff.mp h
      cases heq
      unfold singleDriveLetter at hd
      split at hd
      · next c =>
        split at hd
        · next halpha =>
          cases hd
          exact ⟨c, by rw [hmnt], halpha, rfl⟩
        · cases hd
      · cases hd
    · cases h
  · cases h

theorem not_mem_join {c separator : Char} (hne : c ≠ separator) (h : ∀ part ∈ parts, c ∉ part) :
    c ∉ join separator parts := by
  induction parts with
  | nil => exact not_mem_nil
  | cons part parts ih =>
    rw [forall_mem_cons] at h
    cases parts with
    | nil =>
      rw [join, intercalate_singleton]
      exact h.1
    | cons =>
      rw [join, intercalate_cons_cons]
      intro hc
      rw [mem_append, mem_append, mem_singleton] at hc
      obtain (hc | hc) | hc := hc
      · exact h.1 hc
      · exact hne hc
      · exact ih h.2 hc

theorem wsl_form (hslash : '\\' ∉ slashPath) (h : canonicalWslUncPath slashPath = some canonical) :
    Form slashPath canonical := by
  unfold canonicalWslUncPath at h
  split at h
  · next server distro parts hsplit =>
    obtain ⟨rest, hafter, hsplit⟩ := map_eq_some_iff.mp hsplit
    have hrest : '\\' ∉ rest := by
      intro hc
      apply hslash
      rw [after_eq_some hafter]
      exact mem_append_right _ hc
    have hmem : ∀ part ∈ distro :: parts, part ∈ rest.splitOn '/' := by
      intro part hpart
      rw [hsplit]
      exact mem_cons_of_mem server hpart
    have hfull : ∀ part ∈ parts.filter (fun part => part ≠ []), IsDistro part := by
      intro part hpart
      obtain ⟨hin, hne⟩ := mem_filter.mp hpart
      exact isDistro_of_mem hrest (hmem part (mem_cons_of_mem _ hin)) (of_decide_eq_true hne)
    split at h
    · cases h
    split at h
    · cases h
    next hne =>
    have hdistro : IsDistro distro := isDistro_of_mem hrest (hmem distro mem_cons_self) hne
    generalize parts.filter (fun part => part ≠ []) = remoteParts at h hfull
    dsimp only at h
    split at h
    · next drive tail hmounted =>
      cases h
      obtain ⟨c, rfl, halpha, rfl⟩ := mountedDrive_some hmounted
      apply Form.drive c _ halpha
      apply not_mem_join (by decide)
      intro part hpart hc
      have hpart' := hfull part (mem_cons_of_mem _ (mem_cons_of_mem _ hpart))
      cases hpart'.whole '\\' hc
    · next hmounted =>
      cases h
      exact .wsl distro remoteParts hdistro hfull hmounted
  · cases h

theorem recognised_form {slashPath : Path} (hslash : '\\' ∉ slashPath) :
    Form slashPath (recognised slashPath) := by
  unfold recognised
  cases hwindows : canonicalWindowsDrivePath slashPath with
  | some => exact windows_form hslash hwindows
  | none =>
    cases hmnt : canonicalMntDrivePath slashPath with
    | some => exact mnt_form hslash hmnt
    | none =>
      cases hwsl : canonicalWslUncPath slashPath with
      | some => exact wsl_form hslash hwsl
      | none =>
        split
        · next hpair => exact .unc hpair
        · exact .same hwindows

/-! ## canonical paths are canonical -/

theorem wslPath_eq (distro : Path) (parts : List Path) : wslPath distro parts =
    "\\\\wsl.localhost\\".toList ++ join '\\' (distro :: parts) := by
  unfold wslPath join
  cases parts with
  | nil => rw [if_pos rfl, append_nil, intercalate_singleton]
  | cons part parts =>
    rfl

theorem toSlashes_join (h : ∀ part ∈ parts, IsDistro part) :
    toSlashes (join '\\' parts) = join '/' parts := by
  induction parts with
  | nil => rfl
  | cons part parts ih =>
    rw [forall_mem_cons] at h
    have hpart := (toSlashes_distro h.1.whole).2
    unfold join at ih ⊢
    cases parts with
    | nil => rw [intercalate_singleton, intercalate_singleton, hpart]
    | cons =>
      rw [intercalate_cons_cons, intercalate_cons_cons, toSlashes_append,
        toSlashes_append, hpart, ih h.2]
      rfl

theorem getLast?_join (separator : Char) (hne : parts ≠ []) (h : ∀ part ∈ parts, IsDistro part) :
    ∃ c, (join separator parts).getLast? = some c ∧ isSeparator c = false := by
  induction parts with
  | nil => exact absurd rfl hne
  | cons part parts ih =>
    rw [forall_mem_cons] at h
    unfold join at ih ⊢
    cases parts with
    | nil =>
      rw [intercalate_singleton]
      have hlast := getLast?_eq_some_getLast h.1.nonempty
      exact ⟨_, hlast, h.1.whole _ (mem_of_getLast? hlast)⟩
    | cons next parts =>
      obtain ⟨c, hlast, hc⟩ := ih (cons_ne_nil next parts) h.2
      refine ⟨c, ?_, hc⟩
      rw [intercalate_cons_cons, getLast?_append, hlast]
      rfl

theorem recognised_wslPath {distro : Path} (hdistro : IsDistro distro)
    (hparts : ∀ part ∈ parts, IsDistro part) (hmounted : mountedDrive parts = none) :
    recognised ("//wsl.localhost/".toList ++ join '/' (distro :: parts)) = wslPath distro parts := by
  have hall : ∀ part ∈ distro :: parts, '/' ∉ part := by
    rw [forall_mem_cons]
    exact ⟨(toSlashes_distro hdistro.whole).1, fun part h => (toSlashes_distro (hparts part h).whole).1⟩
  have hsplit : ("wsl.localhost/".toList ++ join '/' (distro :: parts)).splitOn '/' =
      "wsl.localhost".toList :: distro :: parts := by
    have hshape : "wsl.localhost/".toList ++ join '/' (distro :: parts) =
        "wsl.localhost".toList ++ '/' :: join '/' (distro :: parts) := rfl
    rw [hshape, splitOn_append_cons_self_of_not_mem (by decide)]
    unfold join
    rw [splitOn_intercalate '/' hall (cons_ne_nil _ _)]
  have hfilter : parts.filter (fun part => part ≠ []) = parts := by
    rw [filter_eq_self]
    exact fun part h => decide_eq_true (hparts part h).nonempty
  have hwsl : canonicalWslUncPath ("//wsl.localhost/".toList ++ join '/' (distro :: parts)) =
      some (wslPath distro parts) := by
    have hafter : after "//".toList ("//wsl.localhost/".toList ++ join '/' (distro :: parts)) =
        some ("wsl.localhost/".toList ++ join '/' (distro :: parts)) := rfl
    have hserver : matchesWslServer "wsl.localhost".toList = true := by decide
    rw [canonicalWslUncPath, hafter, map_some, hsplit]
    dsimp only
    rw [hserver, if_neg hdistro.nonempty, hfilter, hmounted]
    rfl
  have hmnt : canonicalMntDrivePath ("//wsl.localhost/".toList ++ join '/' (distro :: parts)) =
      none := mnt_of_pair _
  rw [recognised, windows_of_not_drive rfl, getD_none, hmnt, getD_none, hwsl, getD_some]

theorem canonical_wslPath (dunce : Dunce) {distro : Path} (hdistro : IsDistro distro)
    (hparts : ∀ part ∈ parts, IsDistro part) (hmounted : mountedDrive parts = none) :
    canonicalProjectPath dunce (wslPath distro parts) = wslPath distro parts := by
  have hall : ∀ part ∈ distro :: parts, IsDistro part := forall_mem_cons.mpr ⟨hdistro, hparts⟩
  obtain ⟨c, hlast, hc⟩ := getLast?_join '\\' (cons_ne_nil distro parts) hall
  have hend : ¬(wslPath distro parts).getLast?.any isSeparator := by
    rw [wslPath_eq, getLast?_append, hlast, some_or, any_some, hc]
    exact Bool.false_ne_true
  have hstrip : stripVerbatimDiskPrefix (wslPath distro parts) = wslPath distro parts :=
    strip_of_third (by decide) _
  have hdrive : isDrivePath (wslPath distro parts) = false := rfl
  have hnormal : toSlashes (normal (wslPath distro parts)) =
      "//wsl.localhost/".toList ++ join '/' (distro :: parts) := by
    rw [normal, hstrip, upperDrive_of_not hdrive, trim_of_not_sep hend, wslPath_eq, toSlashes_append,
      toSlashes_join hall]
    rfl
  have hssh : isSshUrl (wslPath distro parts) = false := not_ssh_of_slash rfl
  rw [canonicalProjectPath_eq dunce hssh, hnormal, recognised_wslPath hdistro hparts hmounted]

theorem canonical_form (dunce : Dunce) (hslash : '\\' ∉ slashPath)
    (hnormal : normal slashPath = slashPath) (hform : Form slashPath canonical)
    (hcanonical : recognised slashPath = canonical) :
    canonicalProjectPath dunce canonical = canonical := by
  have hself : canonical = slashPath → canonicalProjectPath dunce canonical = canonical := by
    rintro rfl
    cases hssh : isSshUrl canonical with
    | true => rw [canonicalProjectPath, hssh, if_pos rfl]
    | false => rw [canonicalProjectPath_eq dunce hssh, hnormal, toSlashes_eq_self hslash, hcanonical]
  cases hform with
  | bare drive hpath halpha =>
    apply hself
    subst hpath
    have hlast : ¬[drive.toUpper, ':'].getLast?.any isSeparator := by
      show ¬isSeparator ':' = true
      decide
    have hdrive : isDrivePath [drive, ':'] = true := halpha
    rw [← hnormal, normal, strip_of_drive hdrive, upperDrive_drive halpha, trim_of_not_sep hlast]
  | drive drive tail halpha htail =>
    have hupper := (Char.isAlpha_toUpper_eq_isAlpha drive).trans halpha
    rw [formatDrivePath_eq, canonical_drive dunce hupper (by decide), toSlashes_toBackslashes,
      toSlashes_eq_self (not_mem_trimSlashes htail), Char.toUpper_toUpper_eq_toUpper,
      formatDrivePath_eq, trimSlashes_trimSlashes]
  | wsl distro parts hdistro hparts hmounted =>
    exact canonical_wslPath dunce hdistro hparts hmounted
  | unc hpair =>
    obtain ⟨rest, rfl⟩ := isPrefixOf_iff_prefix.mp hpair
    have hsame : toSlashes (toBackslashes (['/', '/'] ++ rest)) = ['/', '/'] ++ rest := by
      rw [toSlashes_toBackslashes, toSlashes_eq_self hslash]
    have hmixed : ¬MixedVerbatim (toBackslashes (['/', '/'] ++ rest)) := by
      intro hmixed
      apply hmixed.2
      rw [hsame]
      have hstrip := strip_normal (['/', '/'] ++ rest)
      rw [hnormal] at hstrip
      exact hstrip
    rw [canonicalProjectPath_eq dunce (not_ssh_of_slash hsame), ← normal_toSlashes hmixed, hsame,
      hnormal, hcanonical]
  | same => exact hself rfl

theorem canonical_canonical (dunce : Dunce) (h : ¬MixedVerbatim path) :
    canonicalProjectPath dunce (canonicalProjectPath dunce path) =
      canonicalProjectPath dunce path := by
  cases hssh : isSshUrl path with
  | true =>
    have hsame : canonicalProjectPath dunce path = path := by
      rw [canonicalProjectPath, hssh, if_pos rfl]
    rw [hsame, hsame]
  | false =>
    rw [canonicalProjectPath_eq dunce hssh]
    have hslash := backslash_not_mem (normal path)
    apply canonical_form dunce hslash _ (recognised_form hslash) rfl
    rw [← normal_toSlashes h, normal_normal]

/-! ## separators behind a path -/

def bareDrive (path : Path) : Bool :=
  isDrivePath (stripVerbatimDiskPrefix path) && decide ((stripVerbatimDiskPrefix path).length = 2)

def driveRelative (path : Path) : Bool :=
  isDrivePath (stripVerbatimDiskPrefix path) &&
    !(stripVerbatimDiskPrefix path)[2]?.any isSeparator

/-- a path that is another one with a separator behind it: the root of a drive or of a share -/
def Root (path : Path) : Prop :=
  path = [] ∨ bareDrive path = true ∨
    (isShareRoot path = true ∧ canonicalWslUncPath (toSlashes path) = none)

theorem minLen_le_of {value seps : Path} (hseps : ∀ c ∈ seps, isSeparator c) (hnil : value ≠ [])
    (hbare : ¬(isDrivePath value = true ∧ value.length = 2)) :
    minLen (value ++ seps) ≤ value.length := by
  have hpos := length_pos_of_ne_nil hnil
  by_cases hlt : minLen (value ++ seps) < 3
  · rw [minLen_of_lt hlt]
    split
    · exact hpos
    · exact Nat.zero_le _
  -- only a drive keeps three characters, and it has them before the separators
  have hdrive : isDrivePath value = true := by
    rw [← isDrivePath_append value hseps]
    by_contra hnot
    apply hlt
    unfold minLen
    rw [Bool.eq_false_iff.mpr hnot, Bool.false_and]
    split
    · decide
    · decide
  have hle : minLen (value ++ seps) ≤ 3 := by
    unfold minLen
    split
    · decide
    · split
      · exact Nat.le_refl 3
      · decide
  obtain ⟨drive, rest, rfl, -⟩ := isDrivePath_iff.mp hdrive
  have htwo : (drive :: ':' :: rest).length ≠ 2 := fun h => hbare ⟨hdrive, h⟩
  simp only [length_cons] at hle htwo ⊢
  omega

theorem wsl_append (h : canonicalWslUncPath slashPath = some canonical) (k : Nat) :
    canonicalWslUncPath (slashPath ++ List.replicate k '/') = some canonical := by
  unfold canonicalWslUncPath at h
  split at h
  · next server distro parts hsplit =>
    obtain ⟨rest, hafter, hsplit⟩ := map_eq_some_iff.mp hsplit
    have hafter' : after "//".toList (slashPath ++ replicate k '/') =
        some (rest ++ replicate k '/') := by
      rw [after_eq_some hafter]
      rfl
    have hsplit' : (rest ++ replicate k '/').splitOn '/' =
        server :: distro :: (parts ++ replicate k []) := by
      rw [splitOn_replicate, hsplit]
      rfl
    rw [canonicalWslUncPath, hafter', map_some, hsplit']
    dsimp only
    rw [filter_append, filter_replicate_nil, append_nil]
    exact h
  · cases h

theorem upperDrive_length (path : Path) : (upperDrive path).length = path.length := by
  unfold upperDrive
  split
  · split
    · rfl
    · rfl
  · rfl

theorem ssh_append (h : isSshUrl path = true) (seps : Path) : isSshUrl (path ++ seps) = true := by
  have hword : toLower (path.take 6) = "ssh://".toList := of_decide_eq_true h
  have hlen := congrArg length hword
  have hsix : 6 ≤ path.length := by
    rw [toLower, length_map, length_take] at hlen
    have hwordlen : "ssh://".toList.length = 6 := rfl
    omega
  apply decide_eq_true
  rw [take_append_of_le_length hsix]
  exact hword

theorem pair_of_shareRoot (h : isShareRoot path = true) :
    ∃ rest, toSlashes path = '/' :: '/' :: rest := by
  unfold isShareRoot at h
  dsimp only at h
  cases hpair : ['/', '/'].isPrefixOf (toSlashes path) with
  | true =>
    obtain ⟨rest, hrest⟩ := isPrefixOf_iff_prefix.mp hpair
    exact ⟨rest, hrest.symm⟩
  | false =>
    rw [hpair] at h
    cases h

theorem recognised_wslShare (hpair : ∃ rest, slashPath = '/' :: '/' :: rest)
    (h : canonicalWslUncPath slashPath = some canonical) : recognised slashPath = canonical := by
  obtain ⟨rest, rfl⟩ := hpair
  rw [recognised, windows_of_not_drive rfl, getD_none, mnt_of_pair, getD_none, h, getD_some]

theorem canonical_append (dunce : Dunce) {path seps : Path} (hseps : ∀ c ∈ seps, isSeparator c)
    (hssh : isSshUrl (path ++ seps) = false) (hroot : ¬Root path) :
    canonicalProjectPath dunce (path ++ seps) = canonicalProjectPath dunce path := by
  have hssh' : isSshUrl path = false := by
    by_contra h
    rw [ssh_append (Bool.of_not_eq_false h)] at hssh
    cases hssh
  rw [canonicalProjectPath_eq dunce hssh, canonicalProjectPath_eq dunce hssh']
  have hvalue : upperDrive (stripVerbatimDiskPrefix (path ++ seps)) =
      upperDrive (stripVerbatimDiskPrefix path) ++ seps := by
    rw [strip_append hseps, upperDrive_append hseps]
  cases hshare : isShareRoot (upperDrive (stripVerbatimDiskPrefix path)) with
  | false =>
    unfold normal
    rw [hvalue, trim_append hseps hshare]
    apply minLen_le_of hseps
    · intro hnil
      have hlen := upperDrive_length (stripVerbatimDiskPrefix path)
      rw [hnil] at hlen
      have hstrip := eq_nil_of_length_eq_zero hlen.symm
      obtain hsame | hdrive := strip_cases path
      · rw [hsame] at hstrip
        exact hroot (.inl hstrip)
      · rw [hstrip] at hdrive
        cases hdrive
    · rintro ⟨hdrive, hlen⟩
      rw [isDrivePath_upperDrive] at hdrive
      rw [upperDrive_length] at hlen
      apply hroot
      refine .inr (.inl ?_)
      rw [bareDrive, hdrive, hlen]
      rfl
  | true =>
    obtain ⟨rest, hslash⟩ := pair_of_shareRoot hshare
    have hsame := value_of_slash hslash
    rw [hsame] at hshare hslash
    have hshare' : isShareRoot (path ++ seps) = true := by
      rw [isShareRoot_append hseps, hshare]
    unfold normal
    rw [hvalue, hsame, trim_of_root hshare, trim_of_root hshare', toSlashes_append,
      toSlashes_seps hseps]
    cases hwsl : canonicalWslUncPath (toSlashes path) with
    | none => exact absurd (.inr (.inr ⟨hshare, hwsl⟩)) hroot
    | some =>
      have hpair : ∃ rest', toSlashes path ++ replicate seps.length '/' = '/' :: '/' :: rest' :=
        ⟨_, by rw [hslash]; rfl⟩
      rw [recognised_wslShare hpair (wsl_append hwsl _), recognised_wslShare ⟨rest, hslash⟩ hwsl]

theorem canonical_toSlashes (dunce : Dunce) (hssh : isSshUrl path = false)
    (h : ¬MixedVerbatim path) :
    canonicalProjectPath dunce path = recognised (normal (toSlashes path)) := by
  rw [canonicalProjectPath_eq dunce hssh, normal_toSlashes h]

theorem toSlashes_dropWhile (path : Path) :
    toSlashes (path.dropWhile isSeparator) = trimStartSlashes (toSlashes path) := by
  induction path with
  | nil => rfl
  | cons c cs ih =>
    cases h : isSeparator c with
    | true =>
      rw [dropWhile_cons_of_pos h, ih, toSlashes_cons, isSeparator_iff.mp h, trimStartSlashes_slash]
    | false =>
      have hne : (if c = '\\' then '/' else c) ≠ '/' := by
        rw [Ne, ← isSeparator_iff, h]
        exact Bool.false_ne_true
      rw [dropWhile_cons_of_neg (by rw [h]; exact Bool.false_ne_true), toSlashes_cons,
        trimStartSlashes_cons hne]

theorem windowsDriveToMntPath_format {drive : Char} (halpha : drive.isAlpha = true) {tail : Path}
    (htail : '\\' ∉ tail) :
    ∃ rest, windowsDriveToMntPath (formatDrivePath drive tail) =
        some ("/mnt/".toList ++ drive.toLower :: rest) ∧
      rest.head?.all isSeparator = true ∧
      trimSlashes (toSlashes rest) = trimSlashes (toSlashes tail) := by
  have hdrop : toSlashes (('\\' :: toBackslashes (trimSlashes tail)).dropWhile isSeparator) =
      trimStartSlashes (trimSlashes tail) := by
    rw [toSlashes_dropWhile, toSlashes_cons, if_pos rfl, trimStartSlashes_slash,
      toSlashes_toBackslashes, toSlashes_eq_self (not_mem_trimSlashes htail)]
  have hsame : trimSlashes (trimStartSlashes (trimSlashes tail)) = trimSlashes tail := by
    rw [trimSlashes_trimStart, trimSlashes_trimSlashes]
  have hslash : '\\' ∉ trimStartSlashes (trimSlashes tail) := by
    intro hc
    exact not_mem_trimSlashes htail ((dropWhile_suffix _).subset hc)
  rw [formatDrivePath_eq, windowsDriveToMntPath, if_pos halpha, hdrop, toSlashes_eq_self htail]
  by_cases hnil : trimStartSlashes (trimSlashes tail) = []
  · refine ⟨[], by rw [if_pos hnil], rfl, ?_⟩
    rw [hnil] at hsame
    exact hsame
  · refine ⟨'/' :: trimStartSlashes (trimSlashes tail), by rw [if_neg hnil], rfl, ?_⟩
    rw [toSlashes_cons, if_neg (by decide), trimSlashes_slash, toSlashes_eq_self hslash, hsame]

theorem drive_of_mnt {path candidate : Path} (h : windowsDriveToMntPath path = some candidate) :
    isDrivePath path = true := by
  unfold windowsDriveToMntPath at h
  split at h
  · next drive rest =>
    split at h
    · next halpha => exact halpha
    · cases h
  · cases h

theorem normal_absolute (hrelative : driveRelative path = false)
    (hdrive : isDrivePath (toSlashes (normal path)) = true) :
    ∃ drive rest, drive.isAlpha = true ∧ toSlashes (normal path) = drive :: ':' :: '/' :: rest := by
  rw [isDrivePath_toSlashes, isDrivePath_normal] at hdrive
  have hstrip : normal (stripVerbatimDiskPrefix path) = normal path := by
    unfold normal
    rw [strip_strip]
  unfold driveRelative at hrelative
  rw [hdrive] at hrelative
  obtain ⟨drive, rest, hpath, halpha⟩ := isDrivePath_iff.mp hdrive
  rw [hpath] at hrelative hstrip
  cases rest with
  | nil => cases hrelative
  | cons sep tail =>
    have hsep : isSeparator sep = true := by
      simpa using hrelative
    obtain ⟨kept, seps, hnormal, -, -⟩ := normal_drive halpha hsep tail
    rw [hstrip] at hnormal
    exact ⟨_, _, (Char.isAlpha_toUpper_eq_isAlpha drive).trans halpha, hnormal⟩

theorem canonical_mounted (dunce : Dunce) {path candidate : Path} (hssh : isSshUrl path = false)
    (hrelative : driveRelative path = false)
    (h : windowsDriveToMntPath (canonicalProjectPath dunce path) = some candidate) :
    canonicalProjectPath dunce candidate = canonicalProjectPath dunce path := by
  rw [canonicalProjectPath_eq dunce hssh] at h ⊢
  have hslash := backslash_not_mem (normal path)
  have habsolute := normal_absolute hrelative
  have hform := recognised_form hslash
  generalize toSlashes (normal path) = slashPath at h habsolute hform
  generalize recognised slashPath = canonical at h hform ⊢
  cases hform with
  | bare drive hpath halpha =>
    subst hpath
    obtain ⟨_, _, -, hrest⟩ := habsolute halpha
    cases hrest
  | drive drive tail halpha htail =>
    have hupper := (Char.isAlpha_toUpper_eq_isAlpha drive).trans halpha
    obtain ⟨rest, hmnt, hrest, hsame⟩ := windowsDriveToMntPath_format hupper htail
    rw [hmnt] at h
    cases h
    have hlower := (Char.isAlpha_toLower_eq_isAlpha drive.toUpper).trans hupper
    rw [canonical_mnt dunce hlower hrest, Char.toUpper_toLower_eq_toUpper,
      Char.toUpper_toUpper_eq_toUpper]
    rw [toSlashes_eq_self htail] at hsame
    exact formatDrivePath_congr hsame
  | wsl => cases h
  | unc hpair =>
    obtain ⟨rest, rfl⟩ := isPrefixOf_iff_prefix.mp hpair
    cases h
  | same hwindows =>
    obtain ⟨drive, rest, halpha, rfl⟩ := habsolute (drive_of_mnt h)
    rw [canonicalWindowsDrivePath, if_pos halpha] at hwindows
    cases hwindows

/-- What a project's identity does not depend on. -/
structure IdentityLaws (dunce : Dunce) : Prop where
  /-- a canonical path is canonical -/
  idempotent : ∀ path, ¬MixedVerbatim path →
    canonicalProjectPath dunce (canonicalProjectPath dunce path) = canonicalProjectPath dunce path
  /-- separators behind a path, but for roots -/
  trailing : ∀ path seps, (∀ c ∈ seps, isSeparator c) → isSshUrl (path ++ seps) = false →
    ¬Root path → projectIdentityKey dunce (path ++ seps) = projectIdentityKey dunce path
  /-- `/` for `\` -/
  exchanged : ∀ a b, toSlashes a = toSlashes b → isSshUrl a = false → isSshUrl b = false →
    ¬MixedVerbatim a → ¬MixedVerbatim b → projectIdentityKey dunce a = projectIdentityKey dunce b
  /-- a drive and where it is mounted -/
  mounted : ∀ upper lower tail, upper.isAlpha = true → lower.isAlpha = true →
    upper.toUpper = lower.toUpper →
    projectIdentityKey dunce (upper :: ':' :: '\\' :: tail) =
      projectIdentityKey dunce ("/mnt/".toList ++ lower :: '/' :: tail)
  /-- a drive and where a WSL share has it, when no separator in the tail is repeated -/
  shared : ∀ upper lower distro tail, upper.isAlpha = true → lower.isAlpha = true →
    upper.toUpper = lower.toUpper → IsDistro distro → Collapsed tail →
    projectIdentityKey dunce (upper :: ':' :: '\\' :: tail) =
      projectIdentityKey dunce (wslShare ++ distro ++ "\\mnt\\".toList ++ lower :: '\\' :: tail)
  /-- the path that is repaired -/
  repaired : ∀ path host isUsableDirectory,
    (host = .windows → ¬MixedVerbatim path) → (host = .unix → driveRelative path = false) →
    projectIdentityKey dunce (repairProjectPathForHostWith dunce path host isUsableDirectory) =
      projectIdentityKey dunce path

theorem key_of_canonical {dunce : Dunce} {a b : Path}
    (h : canonicalProjectPath dunce a = canonicalProjectPath dunce b) :
    projectIdentityKey dunce a = projectIdentityKey dunce b := by
  unfold projectIdentityKey
  rw [h]

theorem key_repaired (dunce : Dunce) (path : Path) (host : HostPlatform)
    (isUsableDirectory : Path → Bool) (hwindows : host = .windows → ¬MixedVerbatim path)
    (hunix : host = .unix → driveRelative path = false) :
    projectIdentityKey dunce (repairProjectPathForHostWith dunce path host isUsableDirectory) =
      projectIdentityKey dunce path := by
  unfold repairProjectPathForHostWith
  split
  · rfl
  next hskip =>
  rw [Bool.or_eq_true, not_or, Bool.not_eq_true] at hskip
  dsimp only
  cases host with
  | windows =>
    apply key_of_canonical
    rw [filter_some]
    split
    · exact canonical_canonical dunce (hwindows rfl)
    · rfl
  | unix =>
    cases hcandidate : windowsDriveToMntPath (canonicalProjectPath dunce path) with
    | none => rfl
    | some =>
      apply key_of_canonical
      rw [filter_some]
      split
      · exact canonical_mounted dunce hskip.1 (hunix rfl) hcandidate
      · rfl

theorem identityLaws (dunce : Dunce) : IdentityLaws dunce where
  idempotent path h := canonical_canonical dunce h
  trailing path seps hseps hssh hroot :=
    key_of_canonical (canonical_append dunce hseps hssh hroot)
  exchanged := by
    intro a b hab hssha hsshb ha hb
    apply key_of_canonical
    rw [canonical_toSlashes dunce hssha ha, canonical_toSlashes dunce hsshb hb, hab]
  mounted := by
    intro upper lower tail hupper hlower hsame
    apply key_of_canonical
    rw [canonical_drive dunce hupper (by decide), canonical_mnt dunce hlower rfl, hsame]
    exact formatDrivePath_congr (trimSlashes_slash _).symm
  shared := by
    intro upper lower distro tail hupper hlower hsame hdistro htail
    apply key_of_canonical
    have hslash : toSlashes ('\\' :: tail) = '/' :: toSlashes tail := rfl
    rw [canonical_drive dunce hupper (by decide), canonical_wsl dunce hdistro hlower rfl, hsame, hslash,
      fullParts_slash]
    exact formatDrivePath_congr (trimSlashes_join htail).symm
  repaired := key_repaired dunce

/-- By design the root of a share keeps the separator behind it. -/
theorem shareRoots_differ :
    projectIdentityKey Dunce.unix "\\\\server\\share\\".toList ≠
      projectIdentityKey Dunce.unix "\\\\server\\share".toList := by
  decide +kernel

end CcPanes.Identity

import CcPanes.Foundation.CaseFolding
import CcPanes.Identity.Separators

/-!
# The front end and the back end name a project alike

The recognisers of the two sides are the same functions (`Web.recognised_eq`).  They differ in two
places: in the share roots behind four separators or more, whose last separators one side keeps
(`isUncShareRoot_eq`), and in the letters that are put in lower case.
-/

/-! ## the functions of `projectIdentity.ts`

`toLowerCase` follows the Unicode rules, with the tables as a
parameter; a drive letter is the only text that `toUpperCase` is used on. -/

namespace CcPanes.Identity.Web

open CaseFolding

def startsWith (path start : Path) : Bool := start.isPrefixOf path

/-- `/^[A-Za-z]:/` -/
def isWindowsDrivePath : Path → Bool
  | drive :: colon :: _ => drive.isAlpha && colon = ':'
  | _ => false

def stripVerbatimDrivePrefix (path : Path) : Path :=
  let rest :=
    if startsWith path verbatim then some (path.drop 4)
    else if startsWith path slashVerbatim then some (path.drop 4)
    else none
  match rest with
  | some rest => if isWindowsDrivePath rest then rest else path
  | none => path

def isUncShareRoot (path : Path) : Bool :=
  let normalized := toSlashes path
  if !startsWith normalized ['/', '/'] || startsWith normalized slashVerbatim then false
  else (((trimEndSlashes normalized).drop 2).splitOn '/').length = 2

def minimumLength (path : Path) : Nat :=
  let isDriveRoot := isWindowsDrivePath path && path[2]?.any isSeparator
  if startsWith path ['/'] || startsWith path ['\\'] then 1
  else if isDriveRoot then 3
  else 0

/-- the loop takes separators off the end, while the path is longer than `minimumLength` -/
def trimTrailingSeparators (path : Path) : Path :=
  if path = [] ∨ isUncShareRoot path then path
  else (popFrom (minimumLength path) path.reverse).reverse

def normalizeProjectPath (path : Path) : Path :=
  let value := stripVerbatimDrivePrefix path
  trimTrailingSeparators <|
    match value with
    | drive :: rest => if isWindowsDrivePath value then drive.toUpper :: rest else value
    | [] => []

/-- `replace(/^\/+|\/+$/g, "")` -/
def formatDrivePath (drive : Char) (tail : Path) : Path :=
  let normalizedTail := trimEndSlashes (trimStartSlashes tail)
  if normalizedTail ≠ [] then [drive, ':', '\\'] ++ toBackslashes normalizedTail
  else [drive, ':', '\\']

def canonicalWindowsDrivePath (path : Path) : Option Path :=
  if !isWindowsDrivePath path then none
  else
    match path with
    | drive :: _ :: rest =>
      if rest = [] then some [drive.toUpper, ':']
      else if !startsWith rest ['/'] then none
      else some (formatDrivePath drive.toUpper (trimStartSlashes rest))
    | _ => none

def canonicalMountedDrivePath (path : Path) : Option Path :=
  if !startsWith path "/mnt/".toList then none
  else
    match path.drop 5 with
    | drive :: rest =>
      -- `/^[A-Za-z](?:\/|$)/`
      if drive.isAlpha && (rest = [] || startsWith rest ['/']) then
        some (formatDrivePath drive.toUpper (trimStartSlashes rest))
      else none
    | [] => none

def remotePath (distro : Path) (remoteParts : List Path) : Path :=
  match remoteParts with
  | mnt :: [drive] :: tail =>
    if mnt = "mnt".toList && drive.isAlpha then formatDrivePath drive.toUpper (join '/' tail)
    else join '\\' ([[], [], "wsl.localhost".toList, distro] ++ remoteParts)
  | _ => join '\\' ([[], [], "wsl.localhost".toList, distro] ++ remoteParts)

section
variable (tables : CaseTables)

def isWslServer (server : Path) : Bool :=
  let normalized := lowerCase tables server
  normalized = "wsl.localhost".toList || normalized = "wsl$".toList || normalized = "wsl".toList

def canonicalWslUncPath (path : Path) : Option Path :=
  if !startsWith path ['/', '/'] then none
  else
    match (path.drop 2).splitOn '/' with
    | server :: distro :: remaining =>
      if server = [] || distro = [] || !isWslServer tables server then none
      else
        some (remotePath distro (remaining.filter fun part => part ≠ []))
    | _ => none

def recognised (slashPath : Path) : Path :=
  (canonicalWindowsDrivePath slashPath).getD <|
  (canonicalMountedDrivePath slashPath).getD <|
  (canonicalWslUncPath tables slashPath).getD <|
  if startsWith slashPath ['/', '/'] then toBackslashes slashPath else slashPath

def canonicalProjectPath (path : Path) : Path :=
  if lowerCase tables (path.take 6) = "ssh://".toList then path
  else recognised tables (toSlashes (normalizeProjectPath path))

def projectIdentityKey (path : Path) : Path :=
  let canonical := canonicalProjectPath tables path
  if isWindowsDrivePath canonical then lowerCase tables canonical else canonical

end

end CcPanes.Identity.Web

namespace CcPanes.Identity

open CaseFolding List

/-! ## the recognisers -/

namespace Web

theorem isWindowsDrivePath_eq : ∀ path, isWindowsDrivePath path = Identity.isDrivePath path
  | [] => rfl
  | [_] => rfl
  | drive :: colon :: rest => by
    by_cases hc : colon = ':'
    · subst hc
      simp [isWindowsDrivePath, Identity.isDrivePath]
    · have hfront : isWindowsDrivePath (drive :: colon :: rest) = false := by
        simp [isWindowsDrivePath, hc]
      rw [hfront, isDrivePath_of_ne hc]

theorem stripVerbatimDrivePrefix_eq (path : Path) :
    stripVerbatimDrivePrefix path = stripVerbatimDiskPrefix path := by
  unfold stripVerbatimDrivePrefix stripVerbatimDiskPrefix after startsWith
  simp only [isWindowsDrivePath_eq]
  by_cases hv : verbatim.isPrefixOf path
  · rw [if_pos hv, if_pos hv]
    rfl
  · rw [if_neg hv, if_neg hv]
    rfl

theorem minimumLength_eq (path : Path) : minimumLength path = minLen path := by
  unfold minimumLength minLen
  rw [isWindowsDrivePath_eq]
  have hstart : (startsWith path ['/'] || startsWith path ['\\']) = path.head?.any isSeparator := by
    cases path with
    | nil => rfl
    | cons c cs =>
      show (isPrefixOf _ _ || isPrefixOf _ _) = isSeparator c
      simp only [isPrefixOf, Bool.and_true, isSeparator]
      by_cases h : c = '/'
      · subst h
        rfl
      by_cases h' : c = '\\'
      · subst h'
        rfl
      · simp [h, h', Ne.symm h, Ne.symm h']
  rw [hstart]

theorem formatDrivePath_eq (drive : Char) (tail : Path) :
    formatDrivePath drive tail = Identity.formatDrivePath drive tail := by
  unfold formatDrivePath Identity.formatDrivePath trimSlashes
  by_cases h : trimEndSlashes (trimStartSlashes tail) = []
  · rw [if_neg (not_not.mpr h), if_pos h]
  · rw [if_pos h, if_neg h]
    rfl

theorem startsWith_slash (path : Path) : startsWith path ['/'] = decide (path.head? = some '/') := by
  cases path with
  | nil => rfl
  | cons c cs =>
    show isPrefixOf _ _ = _
    by_cases h : c = '/'
    · subst h
      rfl
    · simp [isPrefixOf, h, Ne.symm h]

theorem canonicalWindowsDrivePath_eq : ∀ path,
    canonicalWindowsDrivePath path = Identity.canonicalWindowsDrivePath path
  | [] => rfl
  | [_] => rfl
  | drive :: colon :: rest => by
    unfold canonicalWindowsDrivePath Identity.canonicalWindowsDrivePath
    rw [isWindowsDrivePath_eq]
    by_cases hc : colon = ':'
    · subst hc
      simp only [Identity.isDrivePath, startsWith_slash, formatDrivePath_eq]
      cases drive.isAlpha with
      | true => simp
      | false => simp
    · rw [isDrivePath_of_ne hc, if_pos (by decide)]
      split
      · next h =>
        cases h
        exact absurd rfl hc
      · rfl

theorem canonicalMountedDrivePath_eq (path : Path) :
    canonicalMountedDrivePath path = canonicalMntDrivePath path := by
  unfold canonicalMountedDrivePath canonicalMntDrivePath after startsWith
  by_cases h : "/mnt/".toList.isPrefixOf path
  · rw [if_pos h]
    have hdrop : path.drop "/mnt/".toList.length = path.drop 5 := rfl
    rw [hdrop]
    simp only [h, Bool.not_true, Bool.false_eq_true, if_false]
    cases path.drop 5 with
    | nil => rfl
    | cons drive rest =>
      dsimp only
      rw [formatDrivePath_eq]
      cases drive.isAlpha with
      | false => rfl
      | true =>
        cases rest with
        | nil => rfl
        | cons c cs =>
          by_cases hc : c = '/'
          · subst hc
            rfl
          · simp [isPrefixOf, hc, Ne.symm hc]
  · simp only [h]
    rfl

variable (tables : CaseTables)

theorem isWslServer_eq (server : Path) : isWslServer tables server = matchesWslServer server := by
  have hlocalhost : lowerCase tables server = "wsl.localhost".toList ↔
      toLower server = "wsl.localhost".toList := lowerCase_eq_word_iff tables (by decide) server
  have hdollar : lowerCase tables server = "wsl$".toList ↔ toLower server = "wsl$".toList :=
    lowerCase_eq_word_iff tables (by decide) server
  have hwsl : lowerCase tables server = "wsl".toList ↔ toLower server = "wsl".toList :=
    lowerCase_eq_word_iff tables (by decide) server
  unfold isWslServer matchesWslServer wslServers
  simp only [hlocalhost, hdollar, hwsl, mem_cons, not_mem_nil, or_false]
  simp only [Bool.decide_or, Bool.or_assoc]

theorem isSshUrl_iff (path : Path) :
    lowerCase tables (path.take 6) = "ssh://".toList ↔ isSshUrl path = true := by
  rw [lowerCase_eq_word_iff tables (by decide)]
  exact (decide_eq_true_iff).symm

theorem join_wsl (distro : Path) (parts : List Path) :
    join '\\' ([[], [], "wsl.localhost".toList, distro] ++ parts) = wslPath distro parts := by
  unfold join wslPath
  cases parts with
  | nil => rfl
  | cons part parts =>
    simp [intercalate_cons_cons, join]

theorem remotePath_eq (distro : Path) (parts : List Path) : some (remotePath distro parts) =
    match mountedDrive parts with
    | some (drive, tail) => some (Identity.formatDrivePath drive (join '/' tail))
    | none => some (wslPath distro parts) := by
  unfold remotePath
  simp only [join_wsl, formatDrivePath_eq]
  match parts with
  | [] => rfl
  | [_] => rfl
  | mnt :: [] :: tail =>
    by_cases h : mnt = "mnt".toList
    · simp [mountedDrive, singleDriveLetter, h]
    · rw [mountedDrive, if_neg h]
  | mnt :: [drive] :: tail =>
    by_cases h : mnt = "mnt".toList
    · cases hdrive : drive.isAlpha with
      | true => simp [mountedDrive, singleDriveLetter, h, hdrive]
      | false => simp [mountedDrive, singleDriveLetter, h, hdrive]
    · rw [mountedDrive, if_neg h]
      simp only [h, decide_false, Bool.false_and, Bool.false_eq_true, if_false]
  | mnt :: (a :: b :: cs) :: tail =>
    by_cases h : mnt = "mnt".toList
    · simp [mountedDrive, singleDriveLetter, h]
    · rw [mountedDrive, if_neg h]

theorem canonicalWslUncPath_eq (path : Path) :
    canonicalWslUncPath tables path = Identity.canonicalWslUncPath path := by
  unfold canonicalWslUncPath Identity.canonicalWslUncPath after startsWith
  have hword : "//".toList = ['/', '/'] := rfl
  rw [hword]
  by_cases h : isPrefixOf ['/', '/'] path
  · rw [if_pos h]
    simp only [h, Bool.not_true, Bool.false_eq_true, if_false, Option.map_some, isWslServer_eq]
    cases (path.drop 2).splitOn '/' with
    | nil => rfl
    | cons server parts =>
      cases parts with
      | nil => rfl
      | cons distro remaining =>
        dsimp only
        rw [remotePath_eq]
        cases hserver : matchesWslServer server with
        | false => simp
        | true =>
          have hne : server ≠ [] := by
            intro hnil
            rw [hnil] at hserver
            revert hserver
            decide
          by_cases hdistro : distro = []
          · simp [hdistro]
          · simp only [hne, hdistro, decide_false, Bool.not_true, Bool.or_false,
              Bool.false_eq_true, if_false] <;> rfl
  · simp only [h]
    rfl

theorem recognised_eq (slashPath : Path) :
    recognised tables slashPath = Identity.recognised slashPath := by
  unfold recognised Identity.recognised startsWith
  rw [canonicalWindowsDrivePath_eq, canonicalMountedDrivePath_eq, canonicalWslUncPath_eq]

end Web

def fourSlashes : Path := ['/', '/', '/', '/']

theorem trimStartPairs_of_not {path : Path} (h : ['/', '/'].isPrefixOf path = false) :
    trimStartPairs path = path := by
  unfold trimStartPairs
  split
  · exact absurd h (by simp [isPrefixOf])
  · rfl

/-- The front end knows the share roots with two or three separators before the server; the back end
takes pairs of separators off. -/
theorem isUncShareRoot_eq (path : Path) : Web.isUncShareRoot path =
    (isShareRoot path && !fourSlashes.isPrefixOf (toSlashes path)) := by
  unfold Web.isUncShareRoot isShareRoot Web.startsWith
  generalize toSlashes path = normalized
  dsimp only
  split
  · rfl
  next hstart =>
  simp only [Bool.or_eq_true, Bool.not_eq_true', not_or, Bool.not_eq_false] at hstart
  obtain ⟨rest, rfl⟩ := isPrefixOf_iff_prefix.mp hstart.1
  have hfour : fourSlashes.isPrefixOf (['/', '/'] ++ rest) = ['/', '/'].isPrefixOf rest := rfl
  have htrim : trimEndSlashes (['/', '/'] ++ rest) =
      if trimEndSlashes rest = [] then [] else '/' :: '/' :: trimEndSlashes rest := by
    show trimEndSlashes ('/' :: '/' :: rest) = _
    rw [trimEndSlashes_slash, trimEndSlashes_slash]
    by_cases h : trimEndSlashes rest = []
    · rw [if_pos h, if_pos h, if_pos rfl]
    · rw [if_neg h, if_neg h, if_neg (cons_ne_nil _ _)]
  rw [hfour, htrim]
  by_cases h : trimEndSlashes rest = []
  · rw [if_pos h]
    rfl
  rw [if_neg h, ← trimEndSlashes_pair h]
  generalize trimEndSlashes rest = u
  show decide ((splitOn '/' u).length = 2) =
    (decide ((splitOn '/' (trimStartPairs u)).length = 2) && !isPrefixOf ['/', '/'] u)
  cases hpair : isPrefixOf ['/', '/'] u with
  | false =>
    rw [trimStartPairs_of_not hpair]
    simp
  | true =>
    obtain ⟨w, rfl⟩ := isPrefixOf_iff_prefix.mp hpair
    have hlen : (splitOn '/' (['/', '/'] ++ w)).length ≠ 2 := by
      show (splitOn '/' ('/' :: '/' :: w)).length ≠ 2
      rw [splitOn_slash, splitOn_slash]
      have hpos := length_pos_of_ne_nil (splitOn_ne_nil '/' w)
      simp only [length_cons]
      omega
    rw [decide_eq_false hlen]
    simp

/-! ## the two keys -/

/-- Four separators before a server and a share, and one behind them: the back end keeps the last,
as for the root of a share, and the front end does not. -/
def deepShareRoot (path : Path) : Bool :=
  isShareRoot path && fourSlashes.isPrefixOf (toSlashes path) && path.getLast?.any isSeparator

theorem value_of_slashes {path rest : Path} (h : toSlashes path = '/' :: '/' :: '/' :: rest) :
    upperDrive (stripVerbatimDiskPrefix path) = path := by
  have hstrip : stripVerbatimDiskPrefix path = path := by
    obtain ⟨a, as, rfl, -, has⟩ := map_eq_cons_iff.mp h
    obtain ⟨b, bs, rfl, -, hbs⟩ := map_eq_cons_iff.mp has
    obtain ⟨c, cs, rfl, hc, -⟩ := map_eq_cons_iff.mp hbs
    have hq : ('?' == c) = false := by
      apply beq_false_of_ne
      rintro rfl
      cases hc
    unfold stripVerbatimDiskPrefix after
    simp [verbatim, slashVerbatim, isPrefixOf, hq]
  rw [hstrip, upperDrive_of_not (not_drive_of_slash h)]

theorem recognised_of_slashes (rest : Path) :
    recognised ('/' :: '/' :: '/' :: rest) = toBackslashes ('/' :: '/' :: '/' :: rest) := by
  have hwindows : canonicalWindowsDrivePath ('/' :: '/' :: '/' :: rest) = none := rfl
  have hmnt : canonicalMntDrivePath ('/' :: '/' :: '/' :: rest) = none := rfl
  have hwsl : canonicalWslUncPath ('/' :: '/' :: '/' :: rest) = none := by
    unfold canonicalWslUncPath
    have hafter : after "//".toList ('/' :: '/' :: '/' :: rest) = some ('/' :: rest) := rfl
    rw [hafter, Option.map_some, splitOn_slash]
    cases rest.splitOn '/' with
    | nil => rfl
    | cons distro parts =>
      rfl
  rw [recognised, hwindows, hmnt, hwsl]
  rfl

theorem exists_not_sep_of_shareRoot {path : Path} (h : isShareRoot path = true) :
    ∃ c ∈ path, isSeparator c = false := by
  by_contra hall
  have hsep : ∀ c ∈ path, isSeparator c = true := by
    intro c hc
    by_contra hnot
    exact hall ⟨c, hc, Bool.eq_false_iff.mpr hnot⟩
  have htrim : trimEndSlashes (toSlashes path) = [] := by
    unfold trimEndSlashes
    rw [rdropWhile_eq_nil_iff]
    intro c hc
    obtain ⟨d, hd, rfl⟩ := mem_map.mp hc
    exact decide_eq_true (isSeparator_iff.mp (hsep d hd))
  unfold isShareRoot at h
  dsimp only at h
  rw [htrim] at h
  split at h
  · cases h
  · cases h

theorem popped_slashes {path rest : Path} (h : toSlashes path = '/' :: '/' :: '/' :: rest)
    (hroot : isShareRoot path = true) (n : Nat) :
    ∃ rest', toSlashes (popFrom n path.reverse).reverse = '/' :: '/' :: '/' :: rest' := by
  obtain ⟨seps, hl, hseps⟩ := popFrom_spec n path.reverse
  obtain ⟨q, hq⟩ : ∃ q, q = (popFrom n path.reverse).reverse := ⟨_, rfl⟩
  have hpath : path = q ++ seps.reverse := by
    rw [hq, ← reverse_append, ← hl, reverse_reverse]
  rw [← hq]
  obtain ⟨c, hc, hnot⟩ := exists_not_sep_of_shareRoot hroot
  have hcq : c ∈ q := by
    rw [hpath, mem_append] at hc
    obtain hc | hc := hc
    · exact hc
    · rw [hseps c (mem_reverse.mp hc)] at hnot
      cases hnot
  have hslash : toSlashes q ++ toSlashes seps.reverse = '/' :: '/' :: '/' :: rest := by
    rw [← h, hpath]
    exact (map_append ..).symm
  have hcs : ¬(if c = '\\' then '/' else c) = '/' := by
    rw [← isSeparator_iff, hnot]
    exact Bool.false_ne_true
  have hmem : (if c = '\\' then '/' else c) ∈ toSlashes q :=
    mem_map_of_mem (f := fun c => if c = '\\' then '/' else c) hcq
  generalize (if c = '\\' then '/' else c) = d at hcs hmem
  match hs : toSlashes q, hmem, hslash with
  | [x], hmem, hslash =>
    rw [mem_singleton] at hmem
    exact absurd (hmem.trans (cons.inj hslash).1) hcs
  | [x, y], hmem, hslash =>
    have h₁ := (cons.inj hslash).1
    have h₂ := (cons.inj (cons.inj hslash).2).1
    simp only [mem_cons, not_mem_nil, or_false] at hmem
    obtain hx | hy := hmem
    · exact absurd (hx.trans h₁) hcs
    · exact absurd (hy.trans h₂) hcs
  | x :: y :: z :: rest', hmem, hslash =>
    have h₁ := (cons.inj hslash).1
    have h₂ := (cons.inj (cons.inj hslash).2).1
    have h₃ := (cons.inj (cons.inj (cons.inj hslash).2).2).1
    exact ⟨rest', by rw [h₁, h₂, h₃]⟩

theorem normalizeProjectPath_unix (path : Path) : normalizeProjectPath Dunce.unix path =
    trimTrailingSeparators (upperDrive (stripVerbatimDiskPrefix path)) := rfl

theorem Web.normalizeProjectPath_eq (path : Path) : Web.normalizeProjectPath path =
    Web.trimTrailingSeparators (upperDrive (stripVerbatimDiskPrefix path)) := by
  unfold Web.normalizeProjectPath upperDrive
  simp only [stripVerbatimDrivePrefix_eq, isWindowsDrivePath_eq] <;> rfl

theorem Web.trimTrailingSeparators_eq {value : Path} (h : deepShareRoot value = false) :
    Web.trimTrailingSeparators value = Identity.trimTrailingSeparators value := by
  unfold Web.trimTrailingSeparators Identity.trimTrailingSeparators
  rw [minimumLength_eq, isUncShareRoot_eq]
  by_cases hnil : value = []
  · rw [if_pos (.inl hnil), if_pos (.inl hnil)]
  cases hroot : isShareRoot value with
  | false => rw [if_neg (by simp [hnil]), if_neg (by simp [hnil])]
  | true =>
    cases hfour : fourSlashes.isPrefixOf (toSlashes value) with
    | false => rw [if_pos (.inr rfl), if_pos (.inr rfl)]
    | true =>
      have hlast : ¬value.reverse.head?.any isSeparator := by
        rw [head?_reverse]
        intro hlast
        rw [deepShareRoot, hroot, hfour, hlast] at h
        cases h
      rw [if_neg (by simp [hnil]), if_pos (.inr rfl), popFrom_of_not_sep hlast,
        reverse_reverse]

theorem fourSlashes_iff {path : Path} : fourSlashes.isPrefixOf path = true ↔
    ∃ rest, path = '/' :: '/' :: '/' :: '/' :: rest := by
  rw [List.isPrefixOf_iff_prefix]
  exact ⟨fun ⟨rest, h⟩ => ⟨rest, h.symm⟩, fun ⟨rest, h⟩ => ⟨rest, h.symm⟩⟩

theorem deepShareRoot_value (path : Path) :
    deepShareRoot (upperDrive (stripVerbatimDiskPrefix path)) = deepShareRoot path := by
  by_cases hfour : ∃ rest, toSlashes path = '/' :: '/' :: '/' :: '/' :: rest
  · obtain ⟨rest, h⟩ := hfour
    rw [value_of_slashes h]
  by_cases hfour' : ∃ rest, toSlashes (upperDrive (stripVerbatimDiskPrefix path)) =
      '/' :: '/' :: '/' :: '/' :: rest
  · obtain ⟨rest, h⟩ := hfour'
    rw [value_of_slash h]
  have hfalse : ∀ p : Path, (¬∃ rest, toSlashes p = '/' :: '/' :: '/' :: '/' :: rest) →
      deepShareRoot p = false := by
    intro p hp
    have hnot : fourSlashes.isPrefixOf (toSlashes p) = false := by
      rw [Bool.eq_false_iff]
      exact fun h => hp (fourSlashes_iff.mp h)
    rw [deepShareRoot, hnot, Bool.and_false, Bool.false_and]
  rw [hfalse _ hfour, hfalse _ hfour']

theorem deepShareRoot_iff {path : Path} : deepShareRoot path = true ↔
    isShareRoot path = true ∧ (∃ rest, toSlashes path = '/' :: '/' :: '/' :: '/' :: rest) ∧
      path.getLast?.any isSeparator = true := by
  rw [deepShareRoot, Bool.and_eq_true, Bool.and_eq_true, fourSlashes_iff, and_assoc]

theorem minLen_of_slash {path rest : Path} (h : toSlashes path = '/' :: rest) : minLen path = 1 := by
  obtain ⟨c, cs, rfl, hc, -⟩ := map_eq_cons_iff.mp h
  exact if_pos (isSeparator_iff.mpr hc)

theorem canonical_deep {path : Path} (h : deepShareRoot path = true) :
    ∃ front back, recognised (toSlashes (Web.trimTrailingSeparators path)) = '\\' :: front ∧
      recognised (toSlashes (trimTrailingSeparators path)) = '\\' :: back ∧
      front.length < back.length := by
  obtain ⟨hroot, ⟨rest, hslash⟩, hlast⟩ := deepShareRoot_iff.mp h
  have hne : path ≠ [] := by
    rintro rfl
    cases hslash
  have hback : trimTrailingSeparators path = path := if_pos (.inr hroot)
  have hfront : Web.trimTrailingSeparators path = (popFrom 1 path.reverse).reverse := by
    have hnot : Web.isUncShareRoot path = false := by
      rw [isUncShareRoot_eq, fourSlashes_iff.mpr ⟨rest, hslash⟩]
      simp
    unfold Web.trimTrailingSeparators
    rw [Web.minimumLength_eq, minLen_of_slash hslash, hnot, if_neg (by simp [hne])]
  obtain ⟨rest', hslash'⟩ := popped_slashes hslash hroot 1
  have hlong : 1 < path.reverse.length := by
    have hlen := congrArg length hslash
    rw [toSlashes_length] at hlen
    rw [length_reverse, hlen]
    simp
  have hlt := popFrom_length_lt hlong (by rw [head?_reverse]; exact hlast)
  refine ⟨'\\' :: '\\' :: toBackslashes rest', '\\' :: '\\' :: '\\' :: toBackslashes rest, ?_, ?_, ?_⟩
  · rw [hfront, hslash', recognised_of_slashes]
    rfl
  · rw [hback, hslash, recognised_of_slashes]
    rfl
  have hfrontlen := congrArg length hslash'
  have hbacklen := congrArg length hslash
  rw [toSlashes_length, length_reverse] at hfrontlen
  rw [toSlashes_length] at hbacklen
  rw [length_reverse] at hlt
  simp only [toBackslashes, length_map, length_cons] at hfrontlen hbacklen ⊢
  omega

theorem canonical_eq_iff (tables : CaseTables) (path : Path) :
    Web.canonicalProjectPath tables path = canonicalProjectPath Dunce.unix path ↔
      deepShareRoot path = false := by
  unfold Web.canonicalProjectPath canonicalProjectPath
  cases hssh : isSshUrl path with
  | true =>
    rw [if_pos ((Web.isSshUrl_iff tables path).mpr hssh), if_pos rfl]
    refine ⟨fun _ => ?_, fun _ => rfl⟩
    rw [Bool.eq_false_iff]
    intro hdeep
    obtain ⟨-, ⟨rest, hslash⟩, -⟩ := deepShareRoot_iff.mp hdeep
    rw [not_ssh_of_slash hslash] at hssh
    cases hssh
  | false =>
    have hnot : ¬lowerCase tables (path.take 6) = "ssh://".toList := by
      rw [Web.isSshUrl_iff, hssh]
      exact Bool.false_ne_true
    rw [if_neg hnot, if_neg Bool.false_ne_true, Web.recognised_eq, Web.normalizeProjectPath_eq,
      normalizeProjectPath_unix]
    constructor
    · intro heq
      rw [Bool.eq_false_iff]
      intro hdeep
      obtain ⟨-, ⟨rest, hslash⟩, -⟩ := deepShareRoot_iff.mp hdeep
      rw [value_of_slashes hslash] at heq
      obtain ⟨front, back, hfront, hback, hlt⟩ := canonical_deep hdeep
      rw [hfront, hback] at heq
      rw [(cons.inj heq).2] at hlt
      exact Nat.lt_irrefl _ hlt
    · intro h
      rw [Web.trimTrailingSeparators_eq (by rw [deepShareRoot_value]; exact h)]

theorem canonical_of_deep (tables : CaseTables) {path : Path} (h : deepShareRoot path = true) :
    ∃ front back, Web.canonicalProjectPath tables path = '\\' :: front ∧
      canonicalProjectPath Dunce.unix path = '\\' :: back := by
  obtain ⟨-, ⟨rest, hslash⟩, -⟩ := deepShareRoot_iff.mp h
  obtain ⟨front, back, hfront, hback, -⟩ := canonical_deep h
  have hssh := not_ssh_of_slash hslash
  have hnot : ¬lowerCase tables (path.take 6) = "ssh://".toList := by
    rw [Web.isSshUrl_iff, hssh]
    exact Bool.false_ne_true
  refine ⟨front, back, ?_, ?_⟩
  · rw [Web.canonicalProjectPath, if_neg hnot, Web.recognised_eq, Web.normalizeProjectPath_eq,
      value_of_slashes hslash]
    exact hfront
  · rw [canonicalProjectPath, hssh, if_neg Bool.false_ne_true, normalizeProjectPath_unix,
      value_of_slashes hslash]
    exact hback

/-- The path is no share root behind four separators; and if it stands for a drive path, lower-casing
that one changes ASCII letters only. -/
def Agrees (tables : CaseTables) (path : Path) : Prop :=
  deepShareRoot path = false ∧
    (isDrivePath (canonicalProjectPath Dunce.unix path) →
      ∀ c ∈ canonicalProjectPath Dunce.unix path, Plain tables c)

theorem key_eq_iff (tables : CaseTables) (path : Path) :
    Web.projectIdentityKey tables path = projectIdentityKey Dunce.unix path ↔
      Agrees tables path := by
  unfold Web.projectIdentityKey projectIdentityKey Agrees
  dsimp only
  rw [Web.isWindowsDrivePath_eq]
  cases hdeep : deepShareRoot path with
  | false =>
    rw [(canonical_eq_iff tables path).mpr hdeep]
    generalize canonicalProjectPath Dunce.unix path = canonical
    cases isDrivePath canonical with
    | false => simp
    | true => simpa [toLower] using lowerCase_eq_map_iff tables canonical
  | true =>
    have hne : ¬Web.canonicalProjectPath tables path = canonicalProjectPath Dunce.unix path := by
      rw [canonical_eq_iff, hdeep]
      exact Bool.noConfusion
    obtain ⟨front, back, hfront, hback⟩ := canonical_of_deep tables hdeep
    have hnot : ∀ rest, isDrivePath ('\\' :: rest) = false := fun rest =>
      by
      apply not_drive_of_slash
      rfl
    rw [hfront, hback] at hne ⊢
    simp only [hnot]
    simpa using hne

/-- Two paths have the same keys in the front end and in the back end, and are equivalent in both or
in neither, if and only if the front end and the back end agree on each of them. -/
theorem identities_agree_iff (tables : CaseTables) (a b : Path) :
    (projectIdentityKey Dunce.unix a = projectIdentityKey Dunce.unix b ↔
        Web.projectIdentityKey tables a = Web.projectIdentityKey tables b) ∧
      Web.projectIdentityKey tables a = projectIdentityKey Dunce.unix a ∧
      Web.projectIdentityKey tables b = projectIdentityKey Dunce.unix b ↔
    Agrees tables a ∧ Agrees tables b := by
  rw [key_eq_iff, key_eq_iff]
  refine ⟨fun h => h.2, fun h => ⟨?_, h⟩⟩
  rw [(key_eq_iff tables a).mpr h.1, (key_eq_iff tables b).mpr h.2]

/-- The front end takes the last separator off and knows one project, the back end knows two. -/
theorem identities_differ :
    Web.projectIdentityKey asciiTables "////server/share/".toList =
        Web.projectIdentityKey asciiTables "////server/share".toList ∧
      projectIdentityKey Dunce.unix "////server/share/".toList ≠
        projectIdentityKey Dunce.unix "////server/share".toList := by
  decide +kernel

end CcPanes.Identity

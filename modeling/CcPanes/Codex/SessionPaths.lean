import CcPanes.Foundation.CaseFolding
import CcPanes.Identity.CanonicalPaths

/-!
# Sessions of a directory, whatever the form of its path

`normalize_cross_platform_compare_path` and `detect_in_sessions` of `codex_session_service.rs`.  A
directory of a Windows drive has four forms (`PathForm`).
-/

namespace CcPanes.Codex
open CcPanes.Identity CaseFolding Bool Option

def uncVerbatim : Path := ['\\', '\\', '?', '\\', 'u', 'n', 'c', '\\']

def stripExtendedLengthPrefix (path : Path) : Path :=
  if uncVerbatim.isPrefixOf (toLower path) then ['\\', '\\'] ++ path.drop 8
  else (after verbatim path).getD path

def wslHosts : List Path := ["wsl.localhost/".toList, "wsl$/".toList, "wsl/".toList]

def stripWslUncPrefix (slashed : Path) : Option Path :=
  (after "//".toList slashed).bind fun rest =>
    if wslHosts.any fun host => host.isPrefixOf (toLower rest) then
      let afterHost := (rest.dropWhile fun c => c ≠ '/').drop 1
      if '/' ∈ afterHost then some (afterHost.dropWhile fun c => c ≠ '/') else none
    else none

/-- the `:` must have a separator behind it -/
def driveToMntPath : Path → Option Path
  | drive :: ':' :: '/' :: rest =>
    if drive.isAlpha then some ("/mnt/".toList ++ drive.toLower :: '/' :: rest) else none
  | _ => none

def normalizeCrossPlatformComparePath (tables : CaseTables) (path : Path) : Path :=
  let slashed := toSlashes (stripExtendedLengthPrefix path)
  match stripWslUncPrefix slashed, driveToMntPath slashed with
  | some rest, _ => trimEndSlashes rest
  | none, some mnt => lowerCase tables (trimEndSlashes mnt)
  | none, none =>
    if ['/'].isPrefixOf slashed && !(['/', '/'].isPrefixOf slashed) then trimEndSlashes slashed
    else lowerCase tables (trimEndSlashes slashed)

/-! ## the scan -/

structure CodexSession where
  id : String
  projectPath : Path
  /-- in seconds -/
  modifiedAt : UInt64

/-- the seconds from the first to the last day that chrono has -/
def minSeconds : Int := -8334601228800
def maxSeconds : Int := 8210266876799

/-- `DateTime::from_timestamp(secs, 0)`, in nanoseconds -/
def fromTimestamp (secs : Int) : Option Int :=
  if minSeconds ≤ secs ∧ secs ≤ maxSeconds then some (secs * 1000000000) else none

/-- `as i64` -/
def asI64 (n : UInt64) : Int := n.toBitVec.toInt

section
variable (tables : CaseTables)

def detectFrom (targets : List Path) (afterRelaxed : Int) :
    List CodexSession → Except String (Option String)
  | [] => .ok none
  | session :: sessions =>
    match fromTimestamp (asI64 session.modifiedAt) with
    | none => .error "Invalid Codex session timestamp"
    | some modifiedAt =>
      if modifiedAt < afterRelaxed then detectFrom targets afterRelaxed sessions
      else if normalizeCrossPlatformComparePath tables session.projectPath ∈ targets then
        .ok (some session.id)
      else detectFrom targets afterRelaxed sessions

/-- `after` is in nanoseconds, and not within a second of the first time that chrono has -/
def detectInSessions (sessions : List CodexSession) (cliProjectPaths : List Path) (after : Int) :
    Except String (Option String) :=
  let targets := cliProjectPaths.map (normalizeCrossPlatformComparePath tables)
  let afterRelaxed := after - 1000000000
  detectFrom tables targets afterRelaxed
    (sessions.mergeSort fun s t => t.modifiedAt ≤ s.modifiedAt)

end

/-! ## directories and the forms of their paths -/

structure Directory where
  drive : Char
  tail : Path
  alpha : drive.isAlpha = true

inductive PathForm where
  | windows
  | extended
  | posix
  | wsl (distro : Path) (whole : ∀ c ∈ distro, isSeparator c = false)

namespace Directory

def path (dir : Directory) : PathForm → Path
  | .windows => dir.drive :: ':' :: '\\' :: dir.tail
  | .extended => verbatim ++ dir.drive :: ':' :: '\\' :: dir.tail
  | .posix => "/mnt/".toList ++ dir.drive.toLower :: '/' :: dir.tail
  | .wsl distro _ =>
    "\\\\wsl.localhost\\".toList ++ distro ++ "\\mnt\\".toList ++
      dir.drive.toLower :: '\\' :: dir.tail

def Same (dir other : Directory) : Prop :=
  dir.drive.toLower = other.drive.toLower ∧
    trimEndSlashes (toSlashes dir.tail) = trimEndSlashes (toSlashes other.tail)

def mounted (dir : Directory) : Path :=
  "/mnt/".toList ++ dir.drive.toLower :: trimEndSlashes ('/' :: toSlashes dir.tail)

end Directory

/-- a session whose directory is known, in one of the forms -/
structure NamedSession where
  id : String
  dir : Directory
  form : PathForm
  modifiedAt : UInt64

def NamedSession.session (s : NamedSession) : CodexSession := ⟨s.id, s.dir.path s.form, s.modifiedAt⟩

/-- not older than the relaxed start, and of the directory of a candidate -/
structure Eligible (candidates : List (Directory × PathForm)) (after : Int) (s : NamedSession) :
    Prop where
  recent : after - 1000000000 ≤ (s.modifiedAt.toNat : Int) * 1000000000
  named : ∃ c ∈ candidates, s.dir.Same c.1

/-- the answer is that of an eligible session with the latest time, or there is none -/
def AnswersLatest (sessions : List NamedSession) (candidates : List (Directory × PathForm))
    (after : Int) (answer : Except String (Option String)) : Prop :=
  (∃ s ∈ sessions, Eligible candidates after s ∧ answer = .ok (some s.id) ∧
    ∀ t ∈ sessions, Eligible candidates after t → t.modifiedAt ≤ s.modifiedAt) ∨
  (answer = .ok none ∧ ∀ s ∈ sessions, ¬Eligible candidates after s)

section
variable (tables : CaseTables) (known : Set (Directory × UInt64))

def KeysAgree : Prop :=
  ∀ r ∈ known, ∀ form form',
    normalizeCrossPlatformComparePath tables (r.1.path form) =
      normalizeCrossPlatformComparePath tables (r.1.path form')

/-- the scan is right for all sessions and candidates with these directories and times -/
def DetectsLatest : Prop :=
  ∀ (sessions : List NamedSession) (candidates : List (Directory × PathForm)) (after : Int),
    (∀ s ∈ sessions, (s.dir, s.modifiedAt) ∈ known) →
    (∀ c ∈ candidates, ∃ time, (c.1, time) ∈ known) →
    AnswersLatest sessions candidates after
      (detectInSessions tables (sessions.map NamedSession.session)
        (candidates.map fun c => c.1.path c.2) after)

end

/-! ## the key of each form -/

theorem not_isPrefixOf_at {start path : Path} (i : Nat) {c d : Char} (hc : start[i]? = some c)
    (hd : path[i]? = some d) (h : c ≠ d) : start.isPrefixOf path = false := by
  cases hpre : start.isPrefixOf path with
  | false => rfl
  | true =>
    obtain ⟨rest, rfl⟩ := List.isPrefixOf_iff_prefix.mp hpre
    obtain ⟨hi, -⟩ := List.getElem?_eq_some_iff.mp hc
    rw [List.getElem?_append_left hi, hc] at hd
    exact absurd (some.inj hd) h

theorem strip_eq_self {path : Path} (hunc : uncVerbatim.isPrefixOf (toLower path) = false)
    (hverbatim : verbatim.isPrefixOf path = false) : stripExtendedLengthPrefix path = path := by
  have hafter : after verbatim path = none := by
    rw [after, hverbatim, if_neg Bool.false_ne_true]
  rw [stripExtendedLengthPrefix, hunc, if_neg Bool.false_ne_true, hafter, getD_none]

theorem trimEndSlashes_slash_cons {c : Char} (hc : c ≠ '/') (path : Path) :
    trimEndSlashes ('/' :: c :: path) = '/' :: c :: trimEndSlashes path := by
  rw [trimEndSlashes_slash, trimEndSlashes_cons hc, if_neg (List.cons_ne_nil _ _)]

theorem isAlpha_ne_slash {c : Char} (h : c.isAlpha = true) : c ≠ '/' := by
  rintro rfl
  cases h

namespace Directory
variable (dir : Directory)

theorem alpha_toLower : dir.drive.toLower.isAlpha = true :=
  (Char.isAlpha_toLower_eq_isAlpha dir.drive).trans dir.alpha

theorem trim_mounted :
    trimEndSlashes ("/mnt/".toList ++ dir.drive.toLower :: '/' :: toSlashes dir.tail) =
      dir.mounted := by
  show trimEndSlashes ('/' :: 'm' :: 'n' :: 't' :: '/' :: dir.drive.toLower ::
    '/' :: toSlashes dir.tail) = _
  rw [trimEndSlashes_slash_cons (by decide), trimEndSlashes_cons (by decide),
    trimEndSlashes_cons (by decide), trimEndSlashes_slash_cons (isAlpha_ne_slash dir.alpha_toLower)]
  rfl

theorem mounted_inj {dir other : Directory} : dir.mounted = other.mounted ↔ dir.Same other := by
  unfold mounted Same
  rw [List.append_cancel_left_eq, List.cons.injEq, trimEndSlashes_slash, trimEndSlashes_slash]
  refine and_congr_right fun _ => ?_
  constructor
  · intro h
    by_cases hnil : trimEndSlashes (toSlashes dir.tail) = []
    · by_cases hnil' : trimEndSlashes (toSlashes other.tail) = []
      · rw [hnil, hnil']
      · rw [if_pos hnil, if_neg hnil'] at h
        cases h
    by_cases hnil' : trimEndSlashes (toSlashes other.tail) = []
    · rw [if_neg hnil, if_pos hnil'] at h
      cases h
    · rw [if_neg hnil, if_neg hnil'] at h
      exact (List.cons.inj h).2
  · intro h
    rw [h]

end Directory

section
variable (tables : CaseTables) (dir : Directory)

theorem normalize_drive {path : Path}
    (h : stripExtendedLengthPrefix path = dir.drive :: ':' :: '\\' :: dir.tail) :
    normalizeCrossPlatformComparePath tables path = lowerCase tables dir.mounted := by
  have hslashed : toSlashes (dir.drive :: ':' :: '\\' :: dir.tail) =
      dir.drive :: ':' :: '/' :: toSlashes dir.tail := by
    rw [toSlashes_cons, if_neg (isAlpha_ne_backslash dir.alpha)]
    rfl
  have hwsl : stripWslUncPrefix (dir.drive :: ':' :: '/' :: toSlashes dir.tail) = none := by
    have hafter : after "//".toList (dir.drive :: ':' :: '/' :: toSlashes dir.tail) = none := by
      rw [after, not_isPrefixOf_at 1 rfl rfl (by decide), if_neg Bool.false_ne_true]
    rw [stripWslUncPrefix, hafter, bind_none]
  have hmnt : driveToMntPath (dir.drive :: ':' :: '/' :: toSlashes dir.tail) =
      some ("/mnt/".toList ++ dir.drive.toLower :: '/' :: toSlashes dir.tail) := if_pos dir.alpha
  rw [normalizeCrossPlatformComparePath, h, hslashed]
  simp only [hwsl, hmnt]
  rw [dir.trim_mounted]

theorem normalize_windows :
    normalizeCrossPlatformComparePath tables (dir.path .windows) =
      lowerCase tables dir.mounted := by
  have hunc : uncVerbatim.isPrefixOf (toLower (dir.path .windows)) = false :=
    not_isPrefixOf_at 1 rfl rfl (by decide)
  have hverbatim : verbatim.isPrefixOf (dir.path .windows) = false :=
    not_isPrefixOf_at 1 rfl rfl (by decide)
  exact normalize_drive tables dir (strip_eq_self hunc hverbatim)

theorem normalize_extended :
    normalizeCrossPlatformComparePath tables (dir.path .extended) =
      lowerCase tables dir.mounted := by
  have hunc : uncVerbatim.isPrefixOf (toLower (dir.path .extended)) = false :=
    not_isPrefixOf_at 5 rfl rfl (by decide)
  have hafter : after verbatim (dir.path .extended) =
      some (dir.drive :: ':' :: '\\' :: dir.tail) := rfl
  apply normalize_drive
  rw [stripExtendedLengthPrefix, hunc, if_neg Bool.false_ne_true, hafter, getD_some]

theorem normalize_posix :
    normalizeCrossPlatformComparePath tables (dir.path .posix) = dir.mounted := by
  have hunc : uncVerbatim.isPrefixOf (toLower (dir.path .posix)) = false :=
    not_isPrefixOf_at 1 rfl rfl (by decide)
  have hverbatim : verbatim.isPrefixOf (dir.path .posix) = false :=
    not_isPrefixOf_at 1 rfl rfl (by decide)
  have hslashed : toSlashes (dir.path .posix) =
      "/mnt/".toList ++ dir.drive.toLower :: '/' :: toSlashes dir.tail := by
    show toSlashes ("/mnt/".toList ++ dir.drive.toLower :: '/' :: dir.tail) = _
    rw [toSlashes_append, toSlashes_cons, if_neg (isAlpha_ne_backslash dir.alpha_toLower)]
    rfl
  rw [normalizeCrossPlatformComparePath, strip_eq_self hunc hverbatim, hslashed]
  exact dir.trim_mounted

theorem stripWslUncPrefix_localhost {distro : Path} (whole : ∀ c ∈ distro, isSeparator c = false)
    (path : Path) :
    stripWslUncPrefix ("//wsl.localhost/".toList ++ (distro ++ '/' :: path)) =
      some ('/' :: path) := by
  have hdistro : ∀ c ∈ distro, decide (c ≠ '/') = true := by
    intro c hc
    rw [decide_eq_true_iff]
    rintro rfl
    exact (toSlashes_distro whole).1 hc
  have hbehind : (distro ++ '/' :: path).dropWhile (fun c => c ≠ '/') = '/' :: path := by
    rw [List.dropWhile_append_of_pos hdistro]
    rfl
  have hmem : '/' ∈ distro ++ '/' :: path := List.mem_append_right _ List.mem_cons_self
  exact (if_pos hmem).trans (congrArg some hbehind)

theorem normalize_wsl {distro : Path} (whole : ∀ c ∈ distro, isSeparator c = false) :
    normalizeCrossPlatformComparePath tables (dir.path (.wsl distro whole)) = dir.mounted := by
  have hunc : uncVerbatim.isPrefixOf (toLower (dir.path (.wsl distro whole))) = false :=
    not_isPrefixOf_at 2 rfl rfl (by decide)
  have hverbatim : verbatim.isPrefixOf (dir.path (.wsl distro whole)) = false :=
    not_isPrefixOf_at 2 rfl rfl (by decide)
  have hslashed : toSlashes (dir.path (.wsl distro whole)) =
      "//wsl.localhost/".toList ++ (distro ++
        ("/mnt/".toList ++ dir.drive.toLower :: '/' :: toSlashes dir.tail)) := by
    show toSlashes ("\\\\wsl.localhost\\".toList ++ distro ++ "\\mnt\\".toList ++
      dir.drive.toLower :: '\\' :: dir.tail) = _
    rw [toSlashes_append, toSlashes_append, toSlashes_append, (toSlashes_distro whole).2,
      toSlashes_cons, if_neg (isAlpha_ne_backslash dir.alpha_toLower), List.append_assoc,
      List.append_assoc]
    rfl
  have hwsl : stripWslUncPrefix ("//wsl.localhost/".toList ++ (distro ++
      ("/mnt/".toList ++ dir.drive.toLower :: '/' :: toSlashes dir.tail))) =
        some ("/mnt/".toList ++ dir.drive.toLower :: '/' :: toSlashes dir.tail) :=
    stripWslUncPrefix_localhost whole _
  rw [normalizeCrossPlatformComparePath, strip_eq_self hunc hverbatim, hslashed]
  simp only [hwsl]
  exact dir.trim_mounted

theorem normalize_path (form : PathForm) :
    normalizeCrossPlatformComparePath tables (dir.path form) = lowerCase tables dir.mounted ∨
    normalizeCrossPlatformComparePath tables (dir.path form) = dir.mounted :=
  match form with
  | .windows => .inl (normalize_windows tables dir)
  | .extended => .inl (normalize_extended tables dir)
  | .posix => .inr (normalize_posix tables dir)
  | .wsl _ whole => .inr (normalize_wsl tables dir whole)

end

section
variable {tables : CaseTables}

theorem settled_of_ascii {c : Char} (hc : ascii c) (h : c.toLower = c) : Settled tables c := by
  constructor
  · exact ascii_ne hc (by decide)
  · rw [tables.mapping_ascii c hc, h]

theorem forall_toSlashes {p : Char → Prop} (hslash : p '/') (hback : p '\\') (path : Path) :
    (∀ c ∈ toSlashes path, p c) ↔ ∀ c ∈ path, p c := by
  unfold toSlashes
  rw [List.forall_mem_map]
  refine forall₂_congr fun c _ => ?_
  by_cases hc : c = '\\'
  · rw [if_pos hc, hc]
    exact iff_of_true hslash hback
  · rw [if_neg hc]

theorem forall_trimEndSlashes {p : Char → Prop} (hslash : p '/') (path : Path) :
    (∀ c ∈ trimEndSlashes path, p c) ↔ ∀ c ∈ path, p c := by
  constructor
  · intro h c hc
    rw [← List.rdropWhile_append_rtakeWhile (p := fun c => decide (c = '/')) (l := path)] at hc
    obtain hc | hc := List.mem_append.mp hc
    · exact h c hc
    · have hslashes := List.mem_rtakeWhile_imp hc
      rw [of_decide_eq_true hslashes]
      exact hslash
  · exact fun h c hc => h c ((List.rdropWhile_prefix _ path).subset hc)

theorem ascii_of_isAlpha {c : Char} (h : c.isAlpha = true) : ascii c := by
  have hval : c.val.toNat ≤ 122 := by
    simp only [Char.isAlpha, Char.isUpper, Char.isLower, or_eq_true, and_eq_true,
      ge_iff_le, decide_eq_true_eq, UInt32.le_iff_toNat_le] at h
    obtain ⟨-, h⟩ | ⟨-, h⟩ := h
    · exact h.trans (by decide)
    · exact h
  exact decide_eq_true (UInt32.lt_iff_toNat_lt.mpr (Nat.lt_of_le_of_lt hval (by decide)))

theorem lowerCase_mounted_iff (dir : Directory) :
    lowerCase tables dir.mounted = dir.mounted ↔ ∀ c ∈ dir.tail, Settled tables c := by
  have hslash : Settled tables '/' := settled_of_ascii (by decide) (by decide)
  have hback : Settled tables '\\' := settled_of_ascii (by decide) (by decide)
  have hmnt : ∀ c ∈ "/mnt/".toList, Settled tables c := by
    have hall : "/mnt/".toList.all (fun c => ascii c && decide (c.toLower = c)) = true := by decide
    intro c hc
    have hboth := List.all_eq_true.mp hall c hc
    rw [and_eq_true, decide_eq_true_iff] at hboth
    exact settled_of_ascii hboth.1 hboth.2
  have hdrive : Settled tables dir.drive.toLower :=
    settled_of_ascii (ascii_of_isAlpha dir.alpha_toLower) (Char.toLower_toLower_eq_toLower _)
  rw [lowerCase_eq_self_iff, Directory.mounted, List.forall_mem_append, List.forall_mem_cons,
    forall_trimEndSlashes hslash, List.forall_mem_cons, forall_toSlashes hslash hback]
  exact ⟨fun h => h.2.2.2, fun h => ⟨hmnt, hdrive, hslash, h⟩⟩

end

theorem asI64_of_lt {n : UInt64} (h : n.toNat < 2 ^ 63) : asI64 n = n.toNat := by
  rw [asI64, BitVec.toInt_eq_toNat_cond, if_pos (by show 2 * n.toNat < 2 ^ 64; omega)]
  rfl

theorem asI64_neg {n : UInt64} (h : 2 ^ 63 ≤ n.toNat) : asI64 n < 0 := by
  rw [asI64, BitVec.toInt_eq_toNat_cond, if_neg (by show ¬2 * n.toNat < 2 ^ 64; omega)]
  omega

theorem fromTimestamp_eq {n : UInt64} (h : (n.toNat : Int) ≤ maxSeconds) :
    fromTimestamp (asI64 n) = some ((n.toNat : Int) * 1000000000) := by
  have hlt : n.toNat < 2 ^ 63 := by
    unfold maxSeconds at h
    omega
  rw [asI64_of_lt hlt, fromTimestamp, if_pos]
  refine ⟨?_, h⟩
  unfold minSeconds
  omega

theorem fromTimestamp_late {n : UInt64} (h : maxSeconds < (n.toNat : Int)) :
    fromTimestamp (asI64 n) = none ∨ ∃ time, fromTimestamp (asI64 n) = some time ∧ time < 0 := by
  by_cases hlt : n.toNat < 2 ^ 63
  · rw [asI64_of_lt hlt, fromTimestamp, if_neg (fun hle => absurd hle.2 (Int.not_le.mpr h))]
    exact .inl rfl
  have hneg := asI64_neg (Nat.le_of_not_lt hlt)
  unfold fromTimestamp
  split
  · refine .inr ⟨_, rfl, ?_⟩
    omega
  · exact .inl rfl

section
variable (tables : CaseTables)

def matchesTarget (targets : List Path) (afterRelaxed : Int) (session : CodexSession) : Bool :=
  afterRelaxed ≤ (session.modifiedAt.toNat : Int) * 1000000000 ∧
    normalizeCrossPlatformComparePath tables session.projectPath ∈ targets

theorem detectFrom_eq {targets : List Path} {afterRelaxed : Int} {sessions : List CodexSession}
    (h : ∀ s ∈ sessions, (s.modifiedAt.toNat : Int) ≤ maxSeconds) :
    detectFrom tables targets afterRelaxed sessions =
      .ok ((sessions.find? (matchesTarget tables targets afterRelaxed)).map CodexSession.id) := by
  induction sessions with
  | nil => rfl
  | cons session sessions ih =>
    rw [List.forall_mem_cons] at h
    rw [detectFrom, fromTimestamp_eq h.1, List.find?_cons]
    dsimp only
    by_cases hold : (session.modifiedAt.toNat : Int) * 1000000000 < afterRelaxed
    · have hfalse : matchesTarget tables targets afterRelaxed session = false :=
        decide_eq_false fun hm => absurd hm.1 (Int.not_le.mpr hold)
      rw [if_pos hold, hfalse, ih h.2]
    rw [if_neg hold]
    by_cases hmem : normalizeCrossPlatformComparePath tables session.projectPath ∈ targets
    · have htrue : matchesTarget tables targets afterRelaxed session = true :=
        decide_eq_true ⟨Int.not_lt.mp hold, hmem⟩
      rw [if_pos hmem, htrue]
      rfl
    · have hfalse : matchesTarget tables targets afterRelaxed session = false :=
        decide_eq_false fun hm => absurd hm.2 hmem
      rw [if_neg hmem, hfalse, ih h.2]

end

/-! ## sessions of a directory -/

section
variable {tables : CaseTables} {known : Set (Directory × UInt64)}

theorem normalize_settled {dir : Directory} (h : ∀ c ∈ dir.tail, Settled tables c)
    (form : PathForm) :
    normalizeCrossPlatformComparePath tables (dir.path form) = dir.mounted := by
  obtain hkey | hkey := normalize_path tables dir form
  · rw [hkey]
    exact lowerCase_mounted_iff dir |>.mpr h
  · exact hkey

theorem settled_of_keys {dir : Directory}
    (h : normalizeCrossPlatformComparePath tables (dir.path .windows) =
      normalizeCrossPlatformComparePath tables (dir.path .posix)) :
    ∀ c ∈ dir.tail, Settled tables c := by
  rw [normalize_windows, normalize_posix] at h
  exact (lowerCase_mounted_iff dir).mp h

theorem keysAgree_iff : KeysAgree tables known ↔ ∀ r ∈ known, ∀ c ∈ r.1.tail, Settled tables c := by
  constructor
  · exact fun h r hr => settled_of_keys (h r hr .windows .posix)
  · intro h r hr form form'
    rw [normalize_settled (h r hr), normalize_settled (h r hr)]

theorem matchesTarget_iff {candidates : List (Directory × PathForm)} (after : Int)
    {s : NamedSession} (hs : ∀ c ∈ s.dir.tail, Settled tables c)
    (hcandidates : ∀ c ∈ candidates, ∀ d ∈ c.1.tail, Settled tables d) :
    matchesTarget tables ((candidates.map fun c => c.1.path c.2).map
      (normalizeCrossPlatformComparePath tables)) (after - 1000000000) s.session = true ↔
      Eligible candidates after s := by
  have hkey : normalizeCrossPlatformComparePath tables s.session.projectPath = s.dir.mounted :=
    normalize_settled hs s.form
  have hmem : s.dir.mounted ∈ (candidates.map fun c => c.1.path c.2).map
      (normalizeCrossPlatformComparePath tables) ↔ ∃ c ∈ candidates, s.dir.Same c.1 := by
    rw [List.map_map, List.mem_map]
    refine exists_congr fun c => and_congr_right fun hc => ?_
    show normalizeCrossPlatformComparePath tables (c.1.path c.2) = _ ↔ _
    rw [normalize_settled (hcandidates c hc), eq_comm, Directory.mounted_inj]
  unfold matchesTarget
  rw [decide_eq_true_iff, hkey, hmem]
  exact ⟨fun h => ⟨h.1, h.2⟩, fun h => ⟨h.recent, h.named⟩⟩

def newestFirst (sessions : List CodexSession) : List CodexSession :=
  sessions.mergeSort fun s t => t.modifiedAt ≤ s.modifiedAt

theorem newestFirst_pairwise (sessions : List CodexSession) :
    (newestFirst sessions).Pairwise fun s t => t.modifiedAt ≤ s.modifiedAt := by
  have htrans : ∀ a b c : CodexSession, decide (b.modifiedAt ≤ a.modifiedAt) = true →
      decide (c.modifiedAt ≤ b.modifiedAt) = true → decide (c.modifiedAt ≤ a.modifiedAt) = true :=
    fun a b c hab hbc => decide_eq_true
      (UInt64.le_trans (of_decide_eq_true hbc) (of_decide_eq_true hab))
  have htotal : ∀ a b : CodexSession,
      (decide (b.modifiedAt ≤ a.modifiedAt) || decide (a.modifiedAt ≤ b.modifiedAt)) = true := by
    intro a b
    rw [or_eq_true, decide_eq_true_iff, decide_eq_true_iff]
    exact UInt64.le_total b.modifiedAt a.modifiedAt
  exact (List.pairwise_mergeSort htrans htotal sessions).imp of_decide_eq_true

theorem detectsLatest (h : ∀ r ∈ known, (∀ c ∈ r.1.tail, Settled tables c) ∧
    (r.2.toNat : Int) ≤ maxSeconds) : DetectsLatest tables known := by
  intro sessions candidates after hsessions hcandidates
  have hsettled : ∀ c ∈ candidates, ∀ d ∈ c.1.tail, Settled tables d := by
    intro c hc
    obtain ⟨time, hknown⟩ := hcandidates c hc
    exact (h _ hknown).1
  have hmem : ∀ {session}, session ∈ newestFirst (sessions.map NamedSession.session) ↔
      ∃ s ∈ sessions, s.session = session := by
    intro session
    rw [newestFirst, List.mem_mergeSort, List.mem_map]
  have htime : ∀ session ∈ newestFirst (sessions.map NamedSession.session),
      (session.modifiedAt.toNat : Int) ≤ maxSeconds := by
    intro session hsession
    obtain ⟨s, hs, rfl⟩ := hmem.mp hsession
    exact (h _ (hsessions s hs)).2
  have hmatches := fun s (hs : s ∈ sessions) =>
    matchesTarget_iff after (h _ (hsessions s hs)).1 hsettled
  show AnswersLatest sessions candidates after (detectFrom tables _ _ (newestFirst _))
  rw [detectFrom_eq tables htime]
  cases hfind : (newestFirst (sessions.map NamedSession.session)).find? (matchesTarget tables _ _) with
  | none =>
    refine .inr ⟨rfl, fun s hs heligible => ?_⟩
    exact List.find?_eq_none.mp hfind s.session (hmem.mpr ⟨s, hs, rfl⟩)
      ((hmatches s hs).mpr heligible)
  | some found =>
    obtain ⟨hfound, before, behind, hsplit, hbefore⟩ := List.find?_eq_some_iff_append.mp hfind
    have hin : found ∈ newestFirst (sessions.map NamedSession.session) := by
      rw [hsplit]
      exact List.mem_append_right _ List.mem_cons_self
    obtain ⟨s, hs, rfl⟩ := hmem.mp hin
    refine .inl ⟨s, hs, (hmatches s hs).mp hfound, rfl, fun t ht heligible => ?_⟩
    have htin := hmem.mpr ⟨t, ht, rfl⟩
    rw [hsplit] at htin
    -- an eligible session is not before the one found
    obtain htin | htin := List.mem_append.mp htin
    · have hno := hbefore _ htin
      rw [(hmatches t ht).mpr heligible] at hno
      cases hno
    obtain heq | htin := List.mem_cons.mp htin
    · exact UInt64.le_of_eq (congrArg CodexSession.modifiedAt heq)
    · have hsorted := newestFirst_pairwise (sessions.map NamedSession.session)
      rw [hsplit] at hsorted
      exact (List.pairwise_cons.mp (List.pairwise_append.mp hsorted).2.1).1 _ htin

theorem detect_one (dir : Directory) (time : UInt64)
    (h : AnswersLatest [⟨"", dir, .posix, time⟩] [(dir, .windows)] 1000000000
      (detectInSessions tables [⟨"", dir.path .posix, time⟩] [dir.path .windows] 1000000000)) :
    (∀ c ∈ dir.tail, Settled tables c) ∧ (time.toNat : Int) ≤ maxSeconds := by
  have heligible : Eligible [(dir, .windows)] 1000000000 ⟨"", dir, .posix, time⟩ := by
    refine ⟨?_, (dir, .windows), List.mem_singleton_self _, rfl, rfl⟩
    omega
  have hanswer : detectInSessions tables [⟨"", dir.path .posix, time⟩] [dir.path .windows]
      1000000000 = .ok (some "") := by
    obtain ⟨s, hs, -, hanswer, -⟩ | ⟨-, hnone⟩ := h
    · rw [List.mem_singleton] at hs
      rw [hanswer, hs]
    · exact absurd heligible (hnone _ (List.mem_singleton_self _))
  rw [detectInSessions] at hanswer
  simp only [List.mergeSort_singleton, detectFrom, List.map_cons, List.map_nil] at hanswer
  by_cases hlate : maxSeconds < (time.toNat : Int)
  · obtain hnone | ⟨t, hsome, hneg⟩ := fromTimestamp_late hlate
    · rw [hnone] at hanswer
      cases hanswer
    rw [hsome] at hanswer
    dsimp only at hanswer
    rw [if_pos (by omega)] at hanswer
    cases hanswer
  refine ⟨settled_of_keys ?_, Int.not_lt.mp hlate⟩
  rw [fromTimestamp_eq (Int.not_lt.mp hlate)] at hanswer
  dsimp only at hanswer
  rw [if_neg (by omega)] at hanswer
  by_cases hkey : normalizeCrossPlatformComparePath tables (dir.path .posix) ∈
      [normalizeCrossPlatformComparePath tables (dir.path .windows)]
  · exact (List.mem_singleton.mp hkey).symm
  · rw [if_neg hkey] at hanswer
    cases hanswer

theorem detectsLatest_iff : DetectsLatest tables known ↔
    ∀ r ∈ known, (∀ c ∈ r.1.tail, Settled tables c) ∧ (r.2.toNat : Int) ≤ maxSeconds := by
  refine ⟨fun h r hr => ?_, detectsLatest⟩
  apply detect_one
  apply h
  · intro s hs
    rw [List.mem_singleton.mp hs]
    exact hr
  · intro c hc
    rw [List.mem_singleton.mp hc]
    exact ⟨r.2, hr⟩

end

/-- For the directories and times that occur: the keys of all forms agree if and only if lower case
changes no character of a tail; the scan is right if and only if, besides, chrono has the times. -/
theorem rollout_matching_iff (tables : CaseTables) (known : Set (Directory × UInt64)) :
    (KeysAgree tables known ↔ ∀ r ∈ known, ∀ c ∈ r.1.tail, Settled tables c) ∧
    (DetectsLatest tables known ↔
      ∀ r ∈ known, (∀ c ∈ r.1.tail, Settled tables c) ∧ (r.2.toNat : Int) ≤ maxSeconds) :=
  ⟨keysAgree_iff, detectsLatest_iff⟩

/-- a tail with a capital: the rollout of WSL is missed for the drive path -/
theorem capital_missed :
    normalizeCrossPlatformComparePath asciiTables "I:\\Proj".toList = "/mnt/i/proj".toList ∧
    normalizeCrossPlatformComparePath asciiTables "/mnt/i/Proj".toList = "/mnt/i/Proj".toList ∧
    ¬DetectsLatest asciiTables {(⟨'I', "Proj".toList, rfl⟩, 1000)} := by
  refine ⟨by decide, by decide, fun h => ?_⟩
  have hsettled := (detectsLatest_iff.mp h _ rfl).1 'P' (by decide)
  cases hsettled.2

end CcPanes.Codex

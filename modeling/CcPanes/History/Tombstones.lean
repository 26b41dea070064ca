import CcPanes.Foundation.Decimal
import CcPanes.History.VersionContent
import Mathlib.Data.List.Induction
import Mathlib.Data.String.Basic

/-!
# The deleted files of a history

A file that is removed gets a tombstone, a version with the content it last had, and is listed among
the deleted files while the tombstone is its newest version.  The newest is the one with the greatest
id, and ids are texts: the milliseconds of the clock and a counter modulo 10000.  A file that comes
back with the content it had is not saved at all, for the tombstone has that content already.
-/

namespace CcPanes
open HistoryFileRepository List

structure TombstoneHistory where
  repo : HistoryFileRepository
  saved : List SaveVersion

namespace TombstoneHistory

variable (host : HistoryHost)

def empty : TombstoneHistory := ⟨HistoryFileRepository.empty, []⟩

def step (s : TombstoneHistory) (a : SaveVersion) : TombstoneHistory :=
  match s.repo.saveVersion host a with
  | (.ok (some _), repo) => ⟨repo, s.saved ++ [a]⟩
  | (_, repo) => ⟨repo, s.saved⟩

def lastOf (calls : List SaveVersion) (file : String) : Option SaveVersion :=
  (calls.filter fun a => a.filePath = file).getLast?

def wasDeleted (calls : List SaveVersion) (file : String) : Bool :=
  (lastOf calls file).any SaveVersion.isDeleted

def isListed (repo : HistoryFileRepository) (file : String) : Prop :=
  ∃ v ∈ repo.listDeletedFiles, v.filePath = file

/-- The deleted files are those that were deleted last, and the ids of each file increase in the
order in which its versions were saved. -/
def TracksExistence (calls : List SaveVersion) (repo : HistoryFileRepository) : Prop :=
  (∀ file, isListed repo file ↔ wasDeleted calls file = true) ∧
    repo.fileVersions.Pairwise fun v v' => v.filePath = v'.filePath → v.id < v'.id

/-- the clock of `a` has as many digits as that of `b`, and in one millisecond the counter has not
come round -/
def StampedAfter (b a : SaveVersion) : Prop :=
  0 ≤ b.now ∧
    (toString (b.now / 1000000)).length = (toString (a.now / 1000000)).length ∧
    (b.now / 1000000 = a.now / 1000000 → b.counter % 10000 < a.counter % 10000)

instance (b a : SaveVersion) : Decidable (StampedAfter b a) :=
  inferInstanceAs (Decidable (_ ∧ _ ∧ _))

/-- A file does not come back with the content of its tombstone, and a version that is saved is
stamped after those of its file. -/
def Careful (s : TombstoneHistory) (a : SaveVersion) : Prop :=
  (∀ v ∈ s.repo.latest a.filePath a.branch, v.hash = host.calculateHash a.content →
    a.isDeleted = false → v.isDeleted = false) ∧
  ((a.isDeleted = true ∨
      ∀ v ∈ s.repo.latest a.filePath a.branch, v.hash ≠ host.calculateHash a.content) →
    ∀ b ∈ s.saved, b.filePath = a.filePath → StampedAfter b a)

instance (s : TombstoneHistory) (a : SaveVersion) : Decidable (Careful host s a) :=
  inferInstanceAs (Decidable (_ ∧ (_ → _)))

theorem toList_pushn (s : String) (c : Char) (n : Nat) :
    (s.pushn c n).toList = s.toList ++ List.replicate n c := by
  rw [String.pushn_eq_repeat_push]
  induction n with
  | zero => exact (append_nil _).symm
  | succ n ih =>
    show (String.push (n.repeat (fun s => s.push c) s) c).toList = _
    rw [String.toList_push, ih, append_assoc, replicate_succ']

theorem toList_toString_nat (n : Nat) : (toString n).toList = Nat.toDigits 10 n :=
  Nat.toList_repr

theorem toList_versionId {now : Int} (hnow : 0 ≤ now) (counter : Nat) :
    (versionId now counter).toList =
      (toString (now / 1000000)).toList ++ Decimal.padded 4 (counter % 10000) ∧
    (toString (now / 1000000)).toList = Nat.toDigits 10 (now / 1000000).toNat := by
  constructor
  · unfold versionId Decimal.padded
    rw [String.toList_append, String.toList_append, toList_pushn, toList_toString_nat,
      ← String.length_toList, toList_toString_nat, append_assoc]
    rfl
  obtain ⟨n, hn⟩ := Int.eq_ofNat_of_zero_le
    (Int.ediv_nonneg hnow (by decide : (0 : Int) ≤ 1000000))
  rw [hn]
  exact toList_toString_nat n

theorem versionId_lt {b a : SaveVersion} (hclock : b.now ≤ a.now) (h : StampedAfter b a) :
    versionId b.now b.counter < versionId a.now a.counter := by
  obtain ⟨hpos, hlen, hcounter⟩ := h
  obtain ⟨hb, hbdigits⟩ := toList_versionId hpos b.counter
  obtain ⟨ha, hadigits⟩ := toList_versionId (Int.le_trans hpos hclock) a.counter
  rw [String.lt_iff, hb, ha]
  have hle : b.now / 1000000 ≤ a.now / 1000000 := Int.ediv_le_ediv (by decide) hclock
  rcases Int.lt_or_eq_of_le hle with hlt | heq
  · -- the milliseconds decide
    rw [← String.length_toList, ← String.length_toList, hbdigits, hadigits] at hlen
    rw [hbdigits, hadigits]
    refine Decimal.append_lt_append ?_ hlen
    have hms : (b.now / 1000000).toNat < (a.now / 1000000).toNat := by
      omega
    have hwidth : 0 < (Nat.toDigits 10 (a.now / 1000000).toNat).length :=
      length_pos_iff.mpr Nat.toDigits_ne_nil
    have hbound := (Nat.length_toDigits_le_iff (by decide) hwidth).mp
      (Nat.le_refl (Nat.toDigits 10 (a.now / 1000000).toNat).length)
    have hpadded := Decimal.padded_lt hwidth hms hbound
    rw [Decimal.padded_self, ← hlen, Decimal.padded_self] at hpadded
    exact hpadded
  · -- the counters decide
    rw [heq]
    exact append_left_lt
      (Decimal.padded_lt (by decide) (hcounter heq) (Nat.mod_lt _ (by decide)))

/-! ## the last call of a file -/

section
variable {host : HistoryHost} {saved : List SaveVersion} {file : String} {a b : SaveVersion}
  {calls : List SaveVersion}

theorem lastOf_snoc_self : lastOf (saved ++ [a]) a.filePath = some a := by
  unfold lastOf
  rw [filter_append, filter_cons_of_pos (by simp), filter_nil,
    getLast?_concat]

theorem lastOf_snoc_of_ne (h : a.filePath ≠ file) : lastOf (saved ++ [a]) file = lastOf saved file := by
  unfold lastOf
  rw [filter_append, filter_cons_of_neg (by simpa using h), filter_nil,
    append_nil]

theorem wasDeleted_snoc_congr (h : ∀ file, wasDeleted saved file = wasDeleted calls file)
    (a : SaveVersion) (file : String) :
    wasDeleted (saved ++ [a]) file = wasDeleted (calls ++ [a]) file := by
  unfold wasDeleted
  by_cases hfile : a.filePath = file
  · subst hfile
    rw [lastOf_snoc_self, lastOf_snoc_self]
  · rw [lastOf_snoc_of_ne hfile, lastOf_snoc_of_ne hfile]
    exact h file

def Ascending (host : HistoryHost) (saved : List SaveVersion) : Prop :=
  saved.Pairwise fun b a =>
    b.filePath = a.filePath → (newVersion host b).id < (newVersion host a).id

theorem Ascending.lastOf_max (h : Ascending host saved) (hlast : lastOf saved file = some b) :
    b ∈ saved ∧ b.filePath = file ∧ ∀ c ∈ saved, c.filePath = file →
      c = b ∨ (newVersion host c).id < (newVersion host b).id := by
  obtain ⟨before, heq⟩ := getLast?_eq_some_iff.mp hlast
  have hmem : ∀ c, (c ∈ saved ∧ c.filePath = file) ↔ c ∈ before ∨ c = b := by
    intro c
    rw [← mem_singleton (a := c), ← mem_append, ← heq, mem_filter, decide_eq_true_eq]
  obtain ⟨hb, hfile⟩ := (hmem b).mpr (.inr rfl)
  refine ⟨hb, hfile, ?_⟩
  intro c hc hcfile
  rcases (hmem c).mp ⟨hc, hcfile⟩ with hbefore | rfl
  · refine .inr ?_
    have hpair := List.Pairwise.filter (fun a => decide (a.filePath = file)) h
    rw [heq, pairwise_append] at hpair
    exact hpair.2.2 c hbefore b (mem_singleton.mpr rfl) (hcfile.trans hfile.symm)
  · exact .inl rfl

theorem lastOf_isSome (hb : b ∈ saved) : ∃ c, lastOf saved b.filePath = some c := by
  have hmem : b ∈ saved.filter fun a => a.filePath = b.filePath :=
    mem_filter.mpr ⟨hb, decide_eq_true rfl⟩
  have hne := ne_nil_of_mem hmem
  exact ⟨_, getLast?_eq_some_getLast hne⟩

structure Stores (host : HistoryHost) (branch : String) (s : TombstoneHistory) : Prop where
  rows : s.repo.fileVersions = s.saved.map (newVersion host)
  branch : ∀ a ∈ s.saved, a.branch = branch
  ascending : Ascending host s.saved

variable {branch : String} {s : TombstoneHistory}

theorem Stores.mem_rows (h : Stores host branch s) {v : FileVersion} :
    v ∈ s.repo.fileVersions ↔ ∃ a ∈ s.saved, newVersion host a = v := by
  rw [h.rows, mem_map]

/-- **The latest version is the one that was saved last.** -/
theorem latest_eq_lastOf (h : Stores host branch s) (file : String) :
    s.repo.latest file branch = (lastOf s.saved file).map (newVersion host) := by
  unfold latest
  generalize hsorted : (s.repo.fileVersions.filter fun v =>
    v.filePath = file && v.branch = branch).insertionSort (fun a b => b.id ≤ a.id) = sorted
  have hmem : ∀ v, v ∈ sorted ↔ ∃ c ∈ s.saved, c.filePath = file ∧ newVersion host c = v := by
    intro v
    rw [← hsorted, mem_insertionSort, mem_filter, h.mem_rows, Bool.and_eq_true,
      decide_eq_true_eq, decide_eq_true_eq]
    constructor
    · rintro ⟨⟨c, hc, rfl⟩, hfile, -⟩
      exact ⟨c, hc, hfile, rfl⟩
    · rintro ⟨c, hc, hfile, rfl⟩
      exact ⟨⟨c, hc, rfl⟩, hfile, h.branch c hc⟩
  have hdesc : sorted.Pairwise fun a b => b.id ≤ a.id := by
    rw [← hsorted]
    exact pairwise_insertionSort _ _
  cases hlast : lastOf s.saved file with
  | none =>
    cases sorted with
    | nil => rfl
    | cons v =>
      obtain ⟨c, hc, rfl, -⟩ := (hmem v).mp (mem_cons_self ..)
      obtain ⟨d, hd⟩ := lastOf_isSome hc
      rw [hlast] at hd
      cases hd
  | some b =>
    obtain ⟨hb, hfile, hmax⟩ := h.ascending.lastOf_max hlast
    have hin : newVersion host b ∈ sorted := (hmem _).mpr ⟨b, hb, hfile, rfl⟩
    cases sorted with
    | nil => cases hin
    | cons v =>
      obtain ⟨c, hc, hcfile, rfl⟩ := (hmem v).mp (mem_cons_self ..)
      rcases hmax c hc hcfile with rfl | hlt
      · rfl
      · rcases mem_cons.mp hin with heq | hrest
        · rw [head?_cons, ← heq, Option.map_some]
        · exact absurd ((pairwise_cons.mp hdesc).1 _ hrest) (not_le_of_gt hlt)

theorem Stores.isListed_iff (h : Stores host branch s) (file : String) :
    isListed s.repo file ↔ wasDeleted s.saved file = true := by
  unfold wasDeleted
  rw [Option.any_eq_true]
  constructor
  · rintro ⟨v, hv, rfl⟩
    obtain ⟨hrow, hdeleted, hnewest⟩ := mem_listDeletedFiles.mp hv
    obtain ⟨b, hb, rfl⟩ := h.mem_rows.mp hrow
    obtain ⟨c, hlast⟩ := lastOf_isSome hb
    obtain ⟨hc, hfile, hmax⟩ := h.ascending.lastOf_max hlast
    rcases hmax b hb rfl with rfl | hlt
    · exact ⟨b, hlast, hdeleted⟩
    · have hle := hnewest _ (h.mem_rows.mpr ⟨c, hc, rfl⟩) hfile
      exact absurd hle (not_le_of_gt hlt)
  rintro ⟨b, hlast, hdeleted⟩
  obtain ⟨hb, hfile, hmax⟩ := h.ascending.lastOf_max hlast
  refine ⟨newVersion host b, mem_listDeletedFiles.mpr ⟨?_, hdeleted, ?_⟩, hfile⟩
  · exact h.mem_rows.mpr ⟨b, hb, rfl⟩
  intro v hv hvfile
  obtain ⟨c, hc, rfl⟩ := h.mem_rows.mp hv
  rcases hmax c hc (hvfile.trans hfile) with rfl | hlt
  · exact le_rfl
  · exact le_of_lt hlt

/-! ## the calls -/

theorem step_skipped (hskip : (!a.isDeleted && s.repo.skipsSave host a) = true) :
    step host s a = s := by
  unfold step saveVersion
  rw [hskip]
  rfl

theorem step_saved (hskip : (!a.isDeleted && s.repo.skipsSave host a) = false)
    (hfree : ∀ v ∈ s.repo.fileVersions, v.filePath = a.filePath → v.id ≠ (newVersion host a).id) :
    (step host s a).saved = s.saved ++ [a] ∧
      (step host s a).repo.fileVersions = s.repo.fileVersions ++ [newVersion host a] := by
  obtain ⟨repo', hsave, hrows⟩ := saveVersion_inserts hskip hfree
  unfold step
  rw [hsave]
  exact ⟨rfl, hrows⟩

theorem skipsSave_iff (hinterval : a.minIntervalSecs = 0) :
    s.repo.skipsSave host a = true ↔
      ∃ v ∈ s.repo.latest a.filePath a.branch, v.hash = host.calculateHash a.content := by
  unfold skipsSave
  rw [hinterval]
  cases s.repo.latest a.filePath a.branch with
  | none => simp
  | some => simp

structure Tracked (host : HistoryHost) (branch : String) (calls : List SaveVersion)
    (s : TombstoneHistory) : Prop extends Stores host branch s where
  called : s.saved ⊆ calls
  flags : ∀ file, wasDeleted s.saved file = wasDeleted calls file

theorem tracked_empty : Tracked host branch [] empty where
  rows := rfl
  branch _ ha := nomatch ha
  ascending := List.Pairwise.nil
  called := List.Subset.refl []
  flags _ := rfl

theorem Tracked.skipped (h : Tracked host branch calls s) (hbranch : a.branch = branch)
    (hinterval : a.minIntervalSecs = 0) (hcareful : Careful host s a)
    (hskip : (!a.isDeleted && s.repo.skipsSave host a) = true) :
    Tracked host branch (calls ++ [a]) (step host s a) := by
  rw [step_skipped hskip]
  obtain ⟨hdeleted, hsame⟩ := (Bool.and_eq_true _ _).mp hskip
  obtain ⟨v, hv, hhash⟩ := (skipsSave_iff hinterval).mp hsame
  have hadeleted : a.isDeleted = false := by simpa using hdeleted
  have hvdeleted : v.isDeleted = false := hcareful.1 v hv hhash hadeleted
  refine { h with called := List.Subset.trans h.called (subset_append_left _ _), flags := ?_ }
  intro file
  by_cases hfile : a.filePath = file
  · -- the version that is there was not a deletion either
    subst hfile
    rw [hbranch, latest_eq_lastOf h.toStores] at hv
    obtain ⟨b, hb, rfl⟩ := Option.map_eq_some_iff.mp hv
    unfold wasDeleted
    rw [lastOf_snoc_self, hb]
    exact hvdeleted.trans hadeleted.symm
  · unfold wasDeleted
    rw [lastOf_snoc_of_ne hfile]
    exact h.flags file

theorem Tracked.recorded (h : Tracked host branch calls s) (hbranch : a.branch = branch)
    (hinterval : a.minIntervalSecs = 0) (hclock : ∀ b ∈ calls, b.now ≤ a.now)
    (hcareful : Careful host s a) (hskip : (!a.isDeleted && s.repo.skipsSave host a) = false) :
    Tracked host branch (calls ++ [a]) (step host s a) := by
  have hrecorded : a.isDeleted = true ∨
      ∀ v ∈ s.repo.latest a.filePath a.branch, v.hash ≠ host.calculateHash a.content := by
    cases hdeleted : a.isDeleted with
    | true => exact .inl rfl
    | false =>
      refine .inr fun v hv hhash => ?_
      have hsame := (skipsSave_iff hinterval).mpr ⟨v, hv, hhash⟩
      rw [hdeleted, hsame] at hskip
      cases hskip
  have hafter : ∀ b ∈ s.saved, b.filePath = a.filePath →
      (newVersion host b).id < (newVersion host a).id := fun b hb hfile =>
    versionId_lt (hclock b (h.called hb)) (hcareful.2 hrecorded b hb hfile)
  obtain ⟨hsaved, hrows⟩ := step_saved (s := s) hskip fun v hv hfile => by
    obtain ⟨b, hb, rfl⟩ := h.mem_rows.mp hv
    exact ne_of_lt (hafter b hb hfile)
  refine ⟨⟨?_, ?_, ?_⟩, ?_, ?_⟩
  · rw [hrows, hsaved, h.rows, map_append]
    rfl
  · rw [hsaved]
    intro b hb
    rcases mem_append.mp hb with hb | hb
    · exact h.branch b hb
    · exact mem_singleton.mp hb ▸ hbranch
  · rw [hsaved]
    refine pairwise_append.mpr ⟨h.ascending, pairwise_singleton _ _, ?_⟩
    intro b hb c hc hfile
    obtain rfl := mem_singleton.mp hc
    exact hafter b hb hfile
  · rw [hsaved]
    exact append_subset.mpr ⟨List.Subset.trans h.called (subset_append_left _ _),
      subset_append_right _ _⟩
  · rw [hsaved]
    exact wasDeleted_snoc_congr h.flags a

theorem tracked_run (hbranch : ∀ a ∈ calls, a.branch = branch)
    (hinterval : ∀ a ∈ calls, a.minIntervalSecs = 0)
    (hclock : calls.Pairwise fun b a => b.now ≤ a.now)
    (hcareful : Run.StepsOk (step host) (Careful host) empty calls) :
    Tracked host branch calls (Run.run (step host) empty calls) := by
  induction calls using reverseRecOn with
  | nil => exact tracked_empty
  | append_singleton calls a ih =>
    obtain ⟨hbefore, ha⟩ := Run.stepsOk_snoc.mp hcareful
    obtain ⟨hpair, -, hle⟩ := pairwise_append.mp hclock
    have htracked := ih (fun b hb => hbranch b (mem_append_left _ hb))
      (fun b hb => hinterval b (mem_append_left _ hb)) hpair hbefore
    have hlast : a ∈ calls ++ [a] := mem_append_right _ (mem_singleton.mpr rfl)
    have hnow : ∀ b ∈ calls, b.now ≤ a.now := fun b hb => hle b hb a (mem_singleton.mpr rfl)
    rw [Run.run_snoc]
    cases hskip : !a.isDeleted &&
        (Run.run (step host) empty calls).repo.skipsSave host a with
    | true => exact htracked.skipped (hbranch a hlast) (hinterval a hlast) ha hskip
    | false => exact htracked.recorded (hbranch a hlast) (hinterval a hlast) hnow ha hskip

end

/-- **The deleted files are those that were deleted last**, and the ids of a file increase, after
any calls of a careful run on one branch. -/
theorem tombstones_track (calls : List SaveVersion) (branch : String)
    (hbranch : ∀ a ∈ calls, a.branch = branch) (hinterval : ∀ a ∈ calls, a.minIntervalSecs = 0)
    (hclock : calls.Pairwise fun b a => b.now ≤ a.now)
    (hcareful : Run.StepsOk (step host) (Careful host) empty calls) :
    TracksExistence calls (Run.run (step host) empty calls).repo := by
  have h := tracked_run hbranch hinterval hclock hcareful
  constructor
  · intro file
    rw [h.isListed_iff, h.flags]
  · rw [h.rows]
    exact pairwise_map.mpr h.ascending

def transition (isDeleted : Bool) (content : FileContent) (ms counter : Nat) : SaveVersion where
  filePath := "notes.txt"
  content := content
  isDeleted := isDeleted
  branch := "main"
  minIntervalSecs := 0
  checkedAt := (1700000000000 + ms) * 1000000
  now := (1700000000000 + ms) * 1000000
  counter := counter

open HistoryLedger (plainContent magicContent sampleHost)

/-- a file that comes back with another content, in the millisecond of its deletion -/
theorem tombstones_track_edited :
    TracksExistence [transition false plainContent 0 7, transition true plainContent 500 8,
        transition false magicContent 500 9]
      (Run.run (step sampleHost) empty [transition false plainContent 0 7,
        transition true plainContent 500 8, transition false magicContent 500 9]).repo :=
  tombstones_track sampleHost _ "main" (by decide) (by decide) (by decide) (by decide +kernel)

/-- A file that comes back with the content it had stays deleted; and in one millisecond the
counter that comes round makes the version before it the newest. -/
theorem restored_file_stays_deleted :
    ¬ TracksExistence [transition false plainContent 0 7, transition true plainContent 500 8,
        transition false plainContent 900 9]
      (Run.run (step sampleHost) empty [transition false plainContent 0 7,
        transition true plainContent 500 8, transition false plainContent 900 9]).repo ∧
    ¬ TracksExistence [transition false plainContent 0 9999, transition true plainContent 0 10000]
      (Run.run (step sampleHost) empty [transition false plainContent 0 9999,
        transition true plainContent 0 10000]).repo := by
  constructor
  · rintro ⟨hlisted, -⟩
    have hmem : "notes.txt" ∈ ((Run.run (step sampleHost) empty [transition false plainContent 0 7,
        transition true plainContent 500 8,
        transition false plainContent 900 9]).repo.listDeletedFiles.map FileVersion.filePath) := by
      decide +kernel
    have hlast := (hlisted "notes.txt").mp (mem_map.mp hmem)
    revert hlast
    decide
  · rintro ⟨-, hids⟩
    revert hids
    decide +kernel

end TombstoneHistory

end CcPanes

import CcPanes.Terminal.TitleRuns
import Mathlib.Logic.Function.Basic

/-!
# The archive of plans

`run_with_stdin` of `plan_archive.rs`: a plan that was written is copied into the directory of
plans, over the archive of the same session and name if one is found.  What is found is any name
with the start of the session id and the end of the name.
-/

namespace CcPanes.PlanArchive
open List Function Option

/-- a write that comes to be archived; its copy succeeds -/
structure Event (γ : Type) where
  sessionId : List Char
  originalName : List Char
  /-- `now.format("%Y%m%d_%H%M%S")` -/
  timestamp : List Char
  /-- the order of `read_dir`; what it cannot read is left out -/
  order : List (List Char)
  content : γ

structure Archive (γ : Type) where
  content : γ
  /-- the session id and the plan name of the content: history, which nothing reads -/
  pair : List Char × List Char

abbrev Dir (γ : Type) := List Char → Option (Archive γ)

variable {γ : Type}

namespace Event

def pair (e : Event γ) : List Char × List Char := (e.sessionId, e.originalName)

/-- `none`: the slice is inside a character, a panic -/
def sessionPrefix (e : Event γ) : Option (List Char) :=
  if 8 ≤ byteLen e.sessionId then sliceTo e.sessionId 8 else some e.sessionId

end Event

def fits (sessionPrefix originalName name : List Char) : Bool :=
  sessionPrefix.isPrefixOf name && ('_' :: originalName).isSuffixOf name

def findExistingArchive (entries : List (List Char)) (sessionPrefix originalName : List Char) :
    Option (List Char) :=
  if sessionPrefix = [] then none else entries.find? (fits sessionPrefix originalName)

def archivedName (sessionPrefix timestamp originalName : List Char) : List Char :=
  if sessionPrefix = [] then timestamp ++ '_' :: originalName
  else sessionPrefix ++ '_' :: timestamp ++ '_' :: originalName

/-- `read_dir` -/
def readDir (dir : Dir γ) (e : Event γ) : List (List Char) :=
  e.order.filter fun name => (dir name).isSome

def targetName (dir : Dir γ) (e : Event γ) (sessionPrefix : List Char) : List Char :=
  (findExistingArchive (readDir dir e) sessionPrefix e.originalName).getD
    (archivedName sessionPrefix e.timestamp e.originalName)

/-- `none`: a panic -/
def archive (dir : Dir γ) (e : Event γ) : Option (Dir γ) :=
  e.sessionPrefix.map fun p => update dir (targetName dir e p) (some ⟨e.content, e.pair⟩)

def run (events : List (Event γ)) : Option (Dir γ) :=
  events.foldlM archive fun _ => none

/-- every pair has its last content in some file -/
def Kept (events : List (Event γ)) (dir : Dir γ) : Prop :=
  ∀ before e after, events = before ++ e :: after → (∀ later ∈ after, later.pair ≠ e.pair) →
    ∃ name, dir name = some ⟨e.content, e.pair⟩

/-- `e` takes the file that `earlier` would be archived in, for its own or for the one to make -/
def Takes (e earlier : Event γ) : Bool :=
  match e.sessionPrefix, earlier.sessionPrefix with
  | some p, some q =>
    let name := archivedName q earlier.timestamp earlier.originalName
    p ≠ [] && fits p e.originalName name || archivedName p e.timestamp e.originalName = name
  | _, _ => false

/-- no session id is cut inside a character, and no event takes the file of another pair -/
def Apart (events : List (Event γ)) : Prop :=
  (∀ e ∈ events, e.sessionPrefix ≠ none) ∧
    events.Pairwise fun earlier e => earlier.pair ≠ e.pair → ¬ Takes e earlier

variable {events : List (Event γ)} {e : Event γ} {dir : Dir γ} {p name : List Char}

theorem targetName_cases (dir : Dir γ) (e : Event γ) (p : List Char) :
    (p ≠ [] ∧ fits p e.originalName (targetName dir e p) ∧ dir (targetName dir e p) ≠ none) ∨
      targetName dir e p = archivedName p e.timestamp e.originalName := by
  unfold targetName findExistingArchive
  by_cases hp : p = []
  · exact .inr (by rw [if_pos hp]; rfl)
  rw [if_neg hp]
  cases hfind : (readDir dir e).find? (fits p e.originalName) with
  | none => exact .inr rfl
  | some name =>
    have hmem := mem_of_find?_eq_some hfind
    exact .inl ⟨hp, find?_some hfind, isSome_iff_ne_none.mp (mem_filter.mp hmem).2⟩

def Named (events : List (Event γ)) (dir : Dir γ) : Prop :=
  ∀ name file, dir name = some file → ∃ e ∈ events, e.pair = file.pair ∧
    ∃ q, e.sessionPrefix = some q ∧ name = archivedName q e.timestamp e.originalName

/-- **An event writes a new file, or one of its own pair.** -/
theorem target_own (happart : Apart (events ++ [e])) (hnamed : Named events dir)
    (hp : e.sessionPrefix = some p) {file : Archive γ}
    (hfile : dir (targetName dir e p) = some file) : file.pair = e.pair := by
  obtain ⟨earlier, hmem, hpair, q, hq, hname⟩ := hnamed _ _ hfile
  by_contra hne
  refine (pairwise_append.mp happart.2).2.2 earlier hmem e (mem_singleton_self e) (hpair ▸ hne) ?_
  unfold Takes
  rw [hp, hq]
  dsimp only
  rw [← hname, Bool.or_eq_true, Bool.and_eq_true, decide_eq_true_eq, decide_eq_true_eq]
  exact (targetName_cases dir e p).imp (fun h => ⟨h.1, h.2.1⟩) Eq.symm

theorem archive_eq (hp : e.sessionPrefix = some p) (dir : Dir γ) :
    archive dir e = some (update dir (targetName dir e p) (some ⟨e.content, e.pair⟩)) := by
  rw [archive, hp]
  rfl

theorem Named.archived (hnamed : Named events dir) (happart : Apart (events ++ [e]))
    (hp : e.sessionPrefix = some p) :
    Named (events ++ [e]) (update dir (targetName dir e p) (some ⟨e.content, e.pair⟩)) := by
  intro name file hfile
  by_cases hname : name = targetName dir e p
  · subst hname
    rw [update_self] at hfile
    cases hfile
    rcases targetName_cases dir e p with ⟨-, -, hfound⟩ | hnew
    · obtain ⟨old, hold⟩ := ne_none_iff_exists'.mp hfound
      obtain ⟨earlier, hmem, hpair, hq⟩ := hnamed _ old hold
      exact ⟨earlier, mem_append_left _ hmem, hpair.trans (target_own happart hnamed hp hold), hq⟩
    · exact ⟨e, by simp, rfl, p, hp, hnew⟩
  · rw [update_of_ne hname] at hfile
    obtain ⟨earlier, hmem, h⟩ := hnamed name file hfile
    exact ⟨earlier, mem_append_left _ hmem, h⟩

theorem Kept.archived (hkept : Kept events dir) (hnamed : Named events dir)
    (happart : Apart (events ++ [e])) (hp : e.sessionPrefix = some p) :
    Kept (events ++ [e]) (update dir (targetName dir e p) (some ⟨e.content, e.pair⟩)) := by
  intro before x after heq hlast
  rcases eq_nil_or_concat' after with rfl | ⟨after, last, rfl⟩
  · obtain ⟨rfl, hx⟩ := append_inj' heq rfl
    obtain rfl := (cons.inj hx).1
    exact ⟨_, update_self ..⟩
  rw [← cons_append, ← append_assoc] at heq
  obtain ⟨rfl, hx⟩ := append_inj' heq rfl
  obtain rfl := (cons.inj hx).1
  obtain ⟨name, hname⟩ := hkept before x after rfl fun later h => hlast later (by simp [h])
  refine ⟨name, ?_⟩
  rw [update_of_ne, hname]
  rintro rfl
  exact hlast e (by simp) (target_own happart hnamed hp hname).symm

theorem Apart.of_append {more : List (Event γ)} (h : Apart (events ++ more)) : Apart events :=
  ⟨fun e he => h.1 e (mem_append_left _ he), (pairwise_append.mp h.2).1⟩

theorem run_spec (happart : Apart events) :
    ∃ dir, run events = some dir ∧ Named events dir ∧ Kept events dir := by
  induction events using List.reverseRecOn with
  | nil => exact ⟨_, rfl, nofun, fun before x after h => by simp at h⟩
  | append_singleton events e ih =>
    obtain ⟨dir, hrun, hnamed, hkept⟩ := ih happart.of_append
    obtain ⟨p, hp⟩ := ne_none_iff_exists'.mp (happart.1 e (by simp))
    refine ⟨_, ?_, hnamed.archived happart hp, hkept.archived hnamed happart hp⟩
    rw [run, foldlM_append, show events.foldlM archive (fun _ => none) = some dir from hrun]
    show (archive dir e).bind some = _
    rw [archive_eq hp]
    rfl

def plan (sessionId originalName timestamp : String) (content : Nat) : Event Nat :=
  ⟨sessionId.toList, originalName.toList, timestamp.toList,
    ["01234567_20260215_143052_a_b.md".toList], content⟩

end CcPanes.PlanArchive

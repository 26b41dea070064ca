import Mathlib.Data.List.Dedup
import Mathlib.Data.List.Infix

/-!
# Trees of files

A tree has regular files, directories and symbolic links.  An entry has a location, the names on the
way to it from the root.  There are no entries but in directories.
-/

namespace FileTree
open List

inductive Component where
  | curDir
  | parentDir
  | normal (name : String)
deriving DecidableEq

/-- how the text of a path ends -/
inductive Ending where
  | plain
  | slash
  | dot
deriving DecidableEq

/-- the components leave out what a path means without: `.` behind another component -/
structure Path where
  absolute : Bool
  components : List Component
  ending : Ending
deriving DecidableEq

abbrev Loc := List String

/-! ## trees -/

inductive Entry where
  | file (content : String)
  | dir
  | link (target : Path)
deriving DecidableEq

structure Tree where
  entry : Loc → Option Entry
  /-- where entries are, or were -/
  locs : List Loc
  root : entry [] = some .dir
  closed : ∀ loc name, entry (loc ++ [name]) ≠ none → entry loc = some .dir
  listed : ∀ loc, entry loc ≠ none → loc ∈ locs

namespace Tree

def bare : Tree where
  entry q := if q = [] then some .dir else none
  locs := [[]]
  root := rfl
  closed loc name h := absurd (if_neg (by simp)) h
  listed loc h := by
    by_cases hloc : loc = []
    · subst hloc
      exact mem_cons_self
    · rw [if_neg hloc] at h
      exact absurd rfl h

variable (t : Tree)

/-- **Above an entry there are directories.** -/
theorem entry_of_append {loc below : Loc} (hbelow : below ≠ [])
    (h : t.entry (loc ++ below) ≠ none) : t.entry loc = some .dir := by
  induction below using reverseRecOn with
  | nil => exact absurd rfl hbelow
  | append_singleton below name ih =>
    rw [← append_assoc] at h
    have hdir := t.closed _ name h
    by_cases hnil : below = []
    · subst hnil
      rwa [append_nil] at hdir
    · exact ih hnil (by rw [hdir]; exact Option.some_ne_none _)

/-- **Below what is no directory there is nothing.** -/
theorem entry_append_eq_none {loc below : Loc} (hloc : t.entry loc ≠ some .dir)
    (hbelow : below ≠ []) : t.entry (loc ++ below) = none := by
  by_contra h
  exact hloc (t.entry_of_append hbelow h)

theorem not_prefix_of_snoc (loc : Loc) (name : String) : ¬ loc ++ [name] <+: loc := by
  intro h
  have hlen := h.length_le
  rw [length_append, length_singleton] at hlen
  omega

/-! ### one entry -/

def create (dir : Loc) (name : String) (e : Entry) (hdir : t.entry dir = some .dir)
    (hnone : t.entry (dir ++ [name]) = none) : Tree where
  entry q := if q = dir ++ [name] then some e else t.entry q
  locs := (dir ++ [name]) :: t.locs
  root := by
    rw [if_neg (by simp)]
    exact t.root
  closed loc n h := by
    by_cases hloc : loc ++ [n] = dir ++ [name]
    · obtain ⟨rfl, -⟩ := append_inj' hloc rfl
      have hne : loc ≠ loc ++ [name] := fun heq => not_prefix_of_snoc loc name (heq ▸ prefix_rfl)
      rw [if_neg hne]
      exact hdir
    rw [if_neg hloc] at h
    have hloc' : loc ≠ dir ++ [name] := by
      intro hloc'
      rw [hloc', t.entry_append_eq_none (by rw [hnone]; exact nofun) (cons_ne_nil _ _)] at h
      exact h rfl
    rw [if_neg hloc']
    exact t.closed loc n h
  listed loc h := by
    by_cases hloc : loc = dir ++ [name]
    · subst hloc
      exact mem_cons_self
    · rw [if_neg hloc] at h
      exact mem_cons_of_mem _ (t.listed loc h)

def setFile (loc : Loc) (content : String) (hfile : ∃ old, t.entry loc = some (.file old)) :
    Tree where
  entry q := if q = loc then some (.file content) else t.entry q
  locs := t.locs
  root := by
    obtain ⟨old, hold⟩ := hfile
    have hne : ([] : Loc) ≠ loc := by
      rintro rfl
      rw [t.root] at hold
      cases hold
    rw [if_neg hne]
    exact t.root
  closed q n h := by
    obtain ⟨old, hold⟩ := hfile
    have hq : t.entry q = some .dir := by
      by_cases hloc : q ++ [n] = loc
      · exact t.closed q n (by rw [hloc, hold]; exact Option.some_ne_none _)
      · rw [if_neg hloc] at h
        exact t.closed q n h
    have hne : q ≠ loc := by
      rintro rfl
      rw [hold] at hq
      cases hq
    rw [if_neg hne]
    exact hq
  listed q h := by
    obtain ⟨old, hold⟩ := hfile
    by_cases hloc : q = loc
    · subst hloc
      exact t.listed q (by rw [hold]; exact Option.some_ne_none _)
    · rw [if_neg hloc] at h
      exact t.listed q h

def removeAt (dir : Loc) (name : String) : Tree where
  entry q := if dir ++ [name] <+: q then none else t.entry q
  locs := t.locs
  root := by
    rw [if_neg (by simp)]
    exact t.root
  closed q n h := by
    by_cases hq : dir ++ [name] <+: q ++ [n]
    · rw [if_pos hq] at h
      exact absurd rfl h
    · rw [if_neg hq] at h
      rw [if_neg fun hpre => hq (hpre.trans (prefix_append q [n]))]
      exact t.closed q n h
  listed q h := by
    by_cases hq : dir ++ [name] <+: q
    · rw [if_pos hq] at h
      exact absurd rfl h
    · rw [if_neg hq] at h
      exact t.listed q h

/-- an entry becomes `name` in the directory `dir`, with what is below it; an entry that was there is
replaced -/
def relocate (source : Loc) (dir : Loc) (name : String) (hsource : source ≠ [])
    (hdir : t.entry dir = some .dir) (hinto : ¬ source <+: dir) : Tree where
  entry q :=
    if dir ++ [name] <+: q then t.entry (source ++ q.drop (dir.length + 1))
    else if source <+: q then none
    else t.entry q
  locs := t.locs ++ t.locs.map fun q => dir ++ [name] ++ q.drop source.length
  root := by
    rw [if_neg (by simp), if_neg (by simpa using hsource)]
    exact t.root
  closed q n h := by
    by_cases hq : dir ++ [name] <+: q ++ [n]
    · rcases prefix_concat_iff.mp (by simpa using hq) with hend | hpre
      · -- the entry itself
        obtain ⟨rfl, -⟩ := append_inj' hend rfl
        rw [if_neg (not_prefix_of_snoc dir name), if_neg hinto]
        exact hdir
      rw [if_pos hpre]
      rw [if_pos hq] at h
      obtain ⟨below, rfl⟩ := hpre
      have hlen : dir.length + 1 = (dir ++ [name]).length := by
        rw [length_append, length_singleton]
      rw [append_assoc, hlen, drop_left, ← append_assoc] at h
      rw [hlen, drop_left]
      exact t.closed _ n h
    · rw [if_neg hq] at h
      rw [if_neg fun hpre => hq (hpre.trans (prefix_append q [n]))]
      by_cases hsrc : source <+: q ++ [n]
      · rw [if_pos hsrc] at h
        exact absurd rfl h
      · rw [if_neg hsrc] at h
        rw [if_neg fun hpre => hsrc (hpre.trans (prefix_append q [n]))]
        exact t.closed q n h
  listed q h := by
    rw [mem_append, mem_map]
    by_cases hq : dir ++ [name] <+: q
    · rw [if_pos hq] at h
      obtain ⟨below, rfl⟩ := hq
      have hlen : dir.length + 1 = (dir ++ [name]).length := by
        rw [length_append, length_singleton]
      rw [hlen, drop_left] at h
      refine .inr ⟨_, t.listed _ h, ?_⟩
      rw [drop_left]
    · rw [if_neg hq] at h
      by_cases hsrc : source <+: q
      · rw [if_pos hsrc] at h
        exact absurd rfl h
      · rw [if_neg hsrc] at h
        exact .inl (t.listed q h)

def nameIn (loc q : Loc) : Option String :=
  match q.getLast? with
  | some name => if q = loc ++ [name] ∧ t.entry q ≠ none then some name else none
  | none => none

def readDir (loc : Loc) : List String := (t.locs.filterMap (t.nameIn loc)).dedup

end Tree

end FileTree

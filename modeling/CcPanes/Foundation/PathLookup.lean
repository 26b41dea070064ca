import CcPanes.Foundation.FileTree

/-!
# Looking up a path

A path is looked up component by component, and a symbolic link on the way is followed.  So many
links are followed at most.
-/

namespace FileTree
open List

inductive Errno where
  | notFound
  | notADirectory
  | isADirectory
  | alreadyExists
  | notEmpty
  | loop
  | invalidInput
  | nameTooLong
  | crossDevice
deriving DecidableEq

inductive Lookup where
  | found (loc : Loc)
  /-- all but the last name are there -/
  | missing (dir : Loc) (name : String)
  | failed (e : Errno)

/-- a path that ends with a separator has to lead to a directory -/
def Path.steps (path : Path) : List Component :=
  path.components ++ if path.ending = .plain then [] else [.curDir]

def Path.isEmpty (path : Path) : Bool := !path.absolute && path.components = []

def Path.ofLoc (loc : Loc) : Path := ⟨true, loc.map .normal, .plain⟩

def maxLinks : Nat := 40

namespace Tree

section
variable (t : Tree)

def walkWith (follow : Loc → List Component → Lookup) : Loc → List Component → Lookup
  | cur, [] => .found cur
  | cur, c :: rest =>
    if t.entry cur ≠ some .dir then .failed .notADirectory
    else
      match c with
      | .curDir => walkWith follow cur rest
      | .parentDir => walkWith follow cur.dropLast rest
      | .normal name =>
        match t.entry (cur ++ [name]) with
        | none => if rest = [] then .missing cur name else .failed .notFound
        | some (.link target) => follow (if target.absolute then [] else cur) (target.steps ++ rest)
        | some (.file _) => walkWith follow (cur ++ [name]) rest
        | some .dir => walkWith follow (cur ++ [name]) rest

def walk : (links : Nat) → Loc → List Component → Lookup
  | 0 => t.walkWith fun _ _ => .failed .loop
  | links + 1 => t.walkWith (walk links)

/-- no link -/
inductive Solid (loc : Loc) : Prop where
  | dir (h : t.entry loc = some .dir)
  | file (content : String) (h : t.entry loc = some (.file content))

def resolve (cwd : Loc) (path : Path) : Lookup :=
  if path.isEmpty then .failed .notFound
  else t.walk maxLinks (if path.absolute then [] else cwd) path.steps

def canonicalize (cwd : Loc) (path : Path) : Except Errno Loc :=
  match t.resolve cwd path with
  | .found loc => .ok loc
  | .missing _ _ => .error .notFound
  | .failed e => .error e

/-- the entry that a path names; a link is not followed -/
def resolveParent (cwd : Loc) (path : Path) : Except Errno (Loc × String) :=
  match path.components.getLast?, path.ending with
  | _, .dot => .error .invalidInput
  | some (.normal name), _ =>
    match t.walk maxLinks (if path.absolute then [] else cwd) path.components.dropLast with
    | .found dir => if t.entry dir = some .dir then .ok (dir, name) else .error .notADirectory
    | .missing _ _ => .error .notFound
    | .failed e => .error e
  | _, _ => .error .invalidInput

end

section
variable {t : Tree} {follow : Loc → List Component → Lookup} {cur : Loc} {name : String}
  {links : Nat}

theorem walkWith_cons (c : Component) (rest : List Component) (hdir : t.entry cur = some .dir) :
    t.walkWith follow cur (c :: rest) =
      match c with
      | .curDir => t.walkWith follow cur rest
      | .parentDir => t.walkWith follow cur.dropLast rest
      | .normal name =>
        match t.entry (cur ++ [name]) with
        | none => if rest = [] then .missing cur name else .failed .notFound
        | some (.link target) => follow (if target.absolute then [] else cur) (target.steps ++ rest)
        | some (.file _) => t.walkWith follow (cur ++ [name]) rest
        | some .dir => t.walkWith follow (cur ++ [name]) rest := by
  conv_lhs => unfold walkWith
  rw [if_neg (not_not_intro hdir)]

theorem walkWith_of_not_dir {c : Component} {rest : List Component}
    (hdir : t.entry cur ≠ some .dir) :
    t.walkWith follow cur (c :: rest) = .failed .notADirectory := by
  conv_lhs => unfold walkWith
  rw [if_pos hdir]

theorem entry_dropLast (hdir : t.entry cur = some .dir) : t.entry cur.dropLast = some .dir := by
  induction cur using reverseRecOn with
  | nil => exact hdir
  | append_singleton loc name =>
    rw [dropLast_concat]
    exact t.closed loc name (by rw [hdir]; exact nofun)

theorem Solid.ne_none {loc : Loc} (h : Solid t loc) : t.entry loc ≠ none := by
  cases h with
  | dir h => rw [h]; exact nofun
  | file content h => rw [h]; exact nofun

variable (t) in
/-- what is found is no link, and what is missing is missing in a directory -/
def Ends : Lookup → Prop
  | .found loc => t.Solid loc
  | .missing dir name => t.entry dir = some .dir ∧ t.entry (dir ++ [name]) = none
  | .failed _ => True

theorem walkWith_ends (hfollow : ∀ cur comps, t.Solid cur → t.Ends (follow cur comps))
    (comps : List Component) : ∀ cur, t.Solid cur → t.Ends (t.walkWith follow cur comps) := by
  induction comps with
  | nil => exact fun cur hcur => hcur
  | cons c rest ih =>
    intro cur _
    by_cases hdir : t.entry cur = some .dir
    · rw [walkWith_cons c rest hdir]
      cases c with
      | curDir => exact ih cur (.dir hdir)
      | parentDir => exact ih _ (.dir (entry_dropLast hdir))
      | normal name =>
        dsimp only
        cases hentry : t.entry (cur ++ [name]) with
        | none =>
          by_cases hrest : rest = []
          · rw [if_pos hrest]
            exact ⟨hdir, hentry⟩
          · rw [if_neg hrest]
            trivial
        | some e =>
          cases e with
          | file content => exact ih _ (.file content hentry)
          | dir => exact ih _ (.dir hentry)
          | link =>
            refine hfollow _ _ ?_
            split
            · exact .dir t.root
            · exact .dir hdir
    · rw [walkWith_of_not_dir hdir]
      trivial

theorem walk_ends (links : Nat) :
    ∀ cur comps, t.Solid cur → t.Ends (t.walk links cur comps) := by
  induction links with
  | zero =>
    intro cur comps hcur
    refine walkWith_ends ?_ comps cur hcur
    exact fun _ _ _ => trivial
  | succ links ih =>
    intro cur comps hcur
    exact walkWith_ends ih comps cur hcur

theorem walk_of_not_dir {c : Component} {rest : List Component} (hdir : t.entry cur ≠ some .dir) :
    t.walk links cur (c :: rest) = .failed .notADirectory := by
  cases links with
  | zero => exact walkWith_of_not_dir hdir
  | succ => exact walkWith_of_not_dir hdir

/-- **What a path leads to is no link**, wherever it starts. -/
theorem resolve_ends (cwd : Loc) (path : Path) : t.Ends (t.resolve cwd path) := by
  unfold resolve
  by_cases hempty : path.isEmpty = true
  · rw [if_pos hempty]
    trivial
  rw [if_neg hempty]
  by_cases habs : path.absolute = true
  · rw [if_pos habs]
    exact walk_ends _ _ _ (.dir t.root)
  rw [if_neg habs]
  by_cases hdir : t.entry cwd = some .dir
  · exact walk_ends _ _ _ (.dir hdir)
  -- a path that starts at `cwd` has components
  have hsteps : path.steps ≠ [] := by
    intro hnil
    have hcomps := (append_eq_nil_iff.mp hnil).1
    simp [Path.isEmpty, habs, hcomps] at hempty
  obtain ⟨c, rest, hcons⟩ := exists_cons_of_ne_nil hsteps
  rw [hcons, walk_of_not_dir hdir]
  trivial

variable (t) in
def continueWith (links : Nat) (more : List Component) : Lookup → Lookup
  | .found loc => t.walk links loc more
  | .missing _ _ => .failed .notFound
  | .failed e => .failed e

theorem walkWith_append (hself : t.walkWith follow = t.walk links)
    {more : List Component} (hmore : more ≠ [])
    (hfollow : ∀ cur comps, ∃ k,
      follow cur (comps ++ more) = t.continueWith k more (follow cur comps))
    (comps : List Component) : ∀ cur, ∃ k,
      t.walkWith follow cur (comps ++ more) =
        t.continueWith k more (t.walkWith follow cur comps) := by
  induction comps with
  | nil => exact fun cur => ⟨links, congrFun (congrFun hself cur) more⟩
  | cons c rest ih =>
    intro cur
    by_cases hdir : t.entry cur = some .dir
    · rw [cons_append, walkWith_cons c _ hdir, walkWith_cons c _ hdir]
      cases c with
      | curDir => exact ih cur
      | parentDir => exact ih _
      | normal name =>
        dsimp only
        cases hentry : t.entry (cur ++ [name]) with
        | none =>
          refine ⟨0, ?_⟩
          dsimp only
          rw [if_neg fun hnil => hmore (append_eq_nil_iff.mp hnil).2]
          split
          · rfl
          · rfl
        | some e =>
          cases e with
          | file => exact ih _
          | dir => exact ih _
          | link =>
            dsimp only
            rw [← append_assoc]
            exact hfollow _ _
    · rw [cons_append, walkWith_of_not_dir hdir, walkWith_of_not_dir hdir]
      exact ⟨0, rfl⟩

/-- **More components are looked up from where the first ones lead**, with fewer links left. -/
theorem walk_append {more : List Component} (hmore : more ≠ []) (links : Nat) :
    ∀ cur comps, ∃ k,
      t.walk links cur (comps ++ more) = t.continueWith k more (t.walk links cur comps) := by
  induction links with
  | zero =>
    intro cur comps
    have hself : t.walkWith (fun _ _ => .failed .loop) = t.walk 0 := rfl
    exact walkWith_append hself hmore (fun _ _ => ⟨0, rfl⟩) comps cur
  | succ links ih =>
    intro cur comps
    have hself : t.walkWith (t.walk links) = t.walk (links + 1) := rfl
    exact walkWith_append hself hmore ih comps cur

theorem walk_name_missing {dir : Loc} (hdir : t.entry dir = some .dir)
    (hnone : t.entry (dir ++ [name]) = none) :
    t.walk links dir [.normal name] = .missing dir name := by
  cases links with
  | zero | succ => exact (walkWith_cons _ _ hdir).trans (by dsimp only; rw [hnone]; rfl)

theorem walkWith_name {dir : Loc} (hdir : t.entry dir = some .dir)
    (hsolid : t.Solid (dir ++ [name])) (rest : List Component) :
    t.walkWith follow dir (.normal name :: rest) = t.walkWith follow (dir ++ [name]) rest := by
  rw [walkWith_cons _ _ hdir]
  cases hsolid with
  | dir h =>
    dsimp only
    rw [h]
  | file content h =>
    dsimp only
    rw [h]

theorem walkWith_names (names : List String) : ∀ cur, t.Solid (cur ++ names) →
    t.walkWith follow cur (names.map .normal) = .found (cur ++ names) := by
  induction names with
  | nil =>
    intro cur _
    rw [append_nil]
    rfl
  | cons name names ih =>
    intro cur hsolid
    have hdir := t.entry_of_append (cons_ne_nil _ _) hsolid.ne_none
    have hstep : t.Solid (cur ++ [name]) := by
      by_cases hnil : names = []
      · rwa [hnil] at hsolid
      · refine .dir (t.entry_of_append hnil ?_)
        rw [append_assoc]
        exact hsolid.ne_none
    rw [map_cons, walkWith_name hdir hstep, ih _ (by rwa [append_assoc]), append_assoc]
    rfl

/-- **The location of an entry that is no link leads to it.** -/
theorem walk_names {loc : Loc} (hsolid : t.Solid loc) :
    t.walk links [] (loc.map .normal) = .found loc := by
  cases links with
  | zero => exact walkWith_names loc [] hsolid
  | succ => exact walkWith_names loc [] hsolid

theorem resolve_ofLoc {cwd loc : Loc} (hsolid : t.Solid loc) :
    t.resolve cwd (.ofLoc loc) = .found loc := by
  show t.walk maxLinks [] (loc.map .normal ++ []) = _
  rw [append_nil]
  exact walk_names hsolid

theorem resolve_ofLoc_missing {cwd dir : Loc} (hdir : t.entry dir = some .dir)
    (hnone : t.entry (dir ++ [name]) = none) :
    t.resolve cwd (.ofLoc (dir ++ [name])) = .missing dir name := by
  show t.walk maxLinks [] ((dir ++ [name]).map .normal ++ []) = _
  obtain ⟨k, hk⟩ : ∃ k, t.walk maxLinks [] (dir.map .normal ++ [.normal name]) =
      t.continueWith k [.normal name] (t.walk maxLinks [] (dir.map .normal)) :=
    walk_append (cons_ne_nil _ _) maxLinks [] _
  rw [append_nil, map_append, map_singleton, hk, walk_names (.dir hdir)]
  exact walk_name_missing hdir hnone

theorem resolveParent_ofLoc {cwd dir : Loc} (hsolid : t.Solid dir) :
    t.resolveParent cwd (.ofLoc (dir ++ [name])) =
      if t.entry dir = some .dir then .ok (dir, name) else .error .notADirectory := by
  unfold resolveParent Path.ofLoc
  rw [map_append, map_singleton, getLast?_concat, dropLast_concat]
  rw [if_pos rfl, walk_names hsolid]

end

end Tree

end FileTree

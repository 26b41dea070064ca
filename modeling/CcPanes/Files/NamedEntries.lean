import CcPanes.Files.CopyFrame

/-!
# The entry that is named

An operation on an entry is for the entry that its path names: the last component in the directory
that the rest of the path leads to.  If that is a link, the operation is for the link.  Nothing
below a `.git` or a `node_modules` is to change.
-/

namespace CcPanes.Files
open FileTree CaseFolding List Option

/-! ## what is asked -/

def Below (loc : Loc) : Prop := ∃ name ∈ loc.dropLast, name = ".git" ∨ name = "node_modules"

instance (loc : Loc) : Decidable (Below loc) := by
  unfold Below
  infer_instance

/-- the entry is gone with what was below it, and every other entry is as it was -/
structure RemovesOnly (t t' : Tree) (leaf : Loc) : Prop where
  removed : ∀ q, leaf <+: q → t'.entry q = none
  kept : ∀ q, ¬ leaf <+: q → t.entry q ≠ none → t'.entry q = t.entry q

/-- what a link at `leaf` leads to, with what is below that, but for the link -/
def KeepsTarget (cwd : Loc) (t t' : Tree) (leaf : Loc) : Prop :=
  ∀ target loc, t.entry leaf = some (.link target) → t.resolve cwd (.ofLoc leaf) = .found loc →
    ∀ q, loc <+: q → q ≠ leaf → t.entry q ≠ none → t'.entry q = t.entry q

def Guarded (t t' : Tree) : Prop := ∀ q, Below q → t'.entry q = t.entry q

namespace Host

variable (host : Host) (t : Tree)

def namedEntry (path : Path) : Option Loc :=
  match fileName path, t.canonicalize host.cwd (parentOrCurDir path) with
  | some name, .ok parent => some (parent ++ [name])
  | _, _ => none

end Host

def FileOp.source : FileOp → Option String
  | .deleteEntry path _ => some path
  | .renameEntry oldPath _ => some oldPath
  | .moveEntry src _ => some src
  | _ => none

/-- a deletion, a renaming or a move that succeeds -/
def ActsOnNamed (host : Host) (t : Tree) (op : FileOp) : Prop :=
  ∀ path, op.source = some path → (host.perform t op).2 = .ok () →
    ∃ leaf, host.namedEntry t (pathBufFrom path) = some leaf ∧
      RemovesOnly t (host.perform t op).1 leaf ∧
      KeepsTarget host.cwd t (host.perform t op).1 leaf

/-- nothing at or below `leaf` is below one of the names -/
def LeavesClear (t : Tree) (leaf : Loc) : Prop :=
  ∀ q, leaf <+: q → t.entry q ≠ none → ¬ Below q

/-- what is at or below `source` is not below one of the names when it is at `dest` -/
def ArrivesClear (t : Tree) (source dest : Loc) : Prop :=
  ∀ below, t.entry (source ++ below) ≠ none → ¬ Below (dest ++ below)

def Meets (host : Host) (t : Tree) : FileOp → Prop
  | .writeFile _ _ => True
  | .createFile path => ∀ dir name,
      t.resolve host.cwd (pathBufFrom path) = .missing dir name → ¬ Below (dir ++ [name])
  | .createDirectory path => ∀ dir name,
      t.resolveParent host.cwd (pathBufFrom path) = .ok (dir, name) →
        t.entry (dir ++ [name]) = none → ¬ Below (dir ++ [name])
  | .deleteEntry path _ => ∀ leaf,
      host.namedEntry t (pathBufFrom path) = some leaf → LeavesClear t leaf
  | .renameEntry oldPath newName =>
      fileName (pathBufFrom oldPath) ≠ none ∧
      ∀ leaf, host.namedEntry t (pathBufFrom oldPath) = some leaf →
        (∀ target, t.entry leaf ≠ some (.link target)) ∧
        t.entry (leaf.dropLast ++ [newName]) = none ∧
        LeavesClear t leaf ∧ ArrivesClear t leaf (leaf.dropLast ++ [newName])
  | .copyEntry src destDir => ∀ source destParent name,
      t.canonicalize host.cwd (pathBufFrom src) = .ok source →
      t.canonicalize host.cwd (pathBufFrom destDir) = .ok destParent →
      source.getLast? = some name →
        if t.entry source = some .dir then ArrivesClear t source (destParent ++ [name])
        else ∀ dir name', t.resolve host.cwd (.ofLoc (destParent ++ [name])) = .missing dir name' →
          ¬ Below (dir ++ [name'])
  | .moveEntry src destDir => ∀ leaf destParent name,
      host.namedEntry t (pathBufFrom src) = some leaf →
      t.canonicalize host.cwd (pathBufFrom destDir) = .ok destParent →
      leaf.getLast? = some name →
        t.entry (destParent ++ [name]) = none ∧ LeavesClear t leaf ∧
          ArrivesClear t leaf (destParent ++ [name])

/-- `trash::delete` takes the entry away, with what is below it, or leaves the tree as it is -/
structure TakesToTrash (trash : Tree → Loc → Tree × Option String) : Prop where
  ok : ∀ t leaf, (trash t leaf).2 = none →
    ∀ q, (trash t leaf).1.entry q = if leaf <+: q then none else t.entry q
  failed : ∀ t leaf detail, (trash t leaf).2 = some detail →
    ∀ q, (trash t leaf).1.entry q = t.entry q

/-! ## what happens to the tree -/

def Same (t t' : Tree) : Prop := ∀ q, t'.entry q = t.entry q

def Removed (t t' : Tree) (leaf : Loc) : Prop :=
  ∀ q, t'.entry q = if leaf <+: q then none else t.entry q

def Moved (t t' : Tree) (source dest : Loc) : Prop :=
  ∀ q, t'.entry q =
    if dest <+: q then t.entry (source ++ q.drop dest.length)
    else if source <+: q then none
    else t.entry q

section
variable {t t' t'' : Tree} {leaf source dest : Loc}

theorem RemovesOnly.keepsTarget {cwd : Loc} (h : RemovesOnly t t' leaf) :
    KeepsTarget cwd t t' leaf := by
  intro target loc hlink _ q _ hne hentry
  refine h.kept q ?_ hentry
  rintro ⟨below, rfl⟩
  have hbelow : below ≠ [] := by
    rintro rfl
    exact hne (append_nil leaf)
  exact hentry (t.entry_append_eq_none (by rw [hlink]; exact nofun) hbelow)

theorem Same.guarded (h : Same t t') : Guarded t t' := fun q _ => h q

theorem Removed.removesOnly (h : Removed t t' leaf) : RemovesOnly t t' leaf where
  removed q hq := by rw [h, if_pos hq]
  kept q hq _ := by rw [h, if_neg hq]

theorem Removed.guarded (h : Removed t t' leaf) (hclear : LeavesClear t leaf) : Guarded t t' := by
  intro q hq
  rw [h]
  by_cases hleaf : leaf <+: q
  · rw [if_pos hleaf]
    by_contra hne
    exact hclear q hleaf (fun hnone => hne hnone.symm) hq
  · rw [if_neg hleaf]

theorem entry_none_below (hdest : t.entry dest = none) {q : Loc} (hq : dest <+: q) :
    t.entry q = none := by
  obtain ⟨below, rfl⟩ := hq
  by_cases hnil : below = []
  · rwa [hnil, append_nil]
  · exact t.entry_append_eq_none (by simp [hdest]) hnil

theorem Moved.removesOnly (h : Moved t t' source dest) (hsource : t.entry source ≠ none)
    (hdest : t.entry dest = none) (hinto : ¬ source <+: dest) : RemovesOnly t t' source where
  removed q hq := by
    have hq' : ¬ dest <+: q := by
      intro hq'
      rcases prefix_or_prefix_of_prefix hq hq' with hpre | hpre
      · exact hinto hpre
      · exact hsource (entry_none_below hdest hpre)
    rw [h, if_neg hq', if_pos hq]
  kept q hq hentry := by
    rw [h, if_neg fun hq' => hentry (entry_none_below hdest hq'), if_neg hq]

theorem Moved.guarded (h : Moved t t' source dest) (hdest : t.entry dest = none)
    (hleaves : LeavesClear t source) (harrives : ArrivesClear t source dest) : Guarded t t' := by
  intro q hq
  rw [h]
  by_cases hq' : dest <+: q
  · rw [if_pos hq', entry_none_below hdest hq']
    obtain ⟨below, rfl⟩ := hq'
    rw [drop_left]
    by_contra hne
    exact harrives below hne hq
  · rw [if_neg hq']
    by_cases hsource : source <+: q
    · rw [if_pos hsource]
      by_contra hne
      exact hleaves q hsource (fun hnone => hne hnone.symm) hq
    · rw [if_neg hsource]

theorem RemovesOnly.of_copy (h : Copying t dest (¬ Below ·) t') (h' : Removed t' t'' source)
    (hdest : t.entry dest = none) : RemovesOnly t t'' source where
  removed q hq := by rw [h', if_pos hq]
  kept q hq hentry := by
    rw [h', if_neg hq]
    exact h.outside q fun hq' => hentry (entry_none_below hdest hq')

theorem Copying.guarded (h : Copying t dest (¬ Below ·) t') (hdest : t.entry dest = none) :
    Guarded t t' := by
  intro q hq
  by_cases hq' : dest <+: q
  · rw [entry_none_below hdest hq']
    by_contra hne
    exact (h.within q hq' hne).2 hq
  · exact h.outside q hq'

theorem Guarded.trans (h : Guarded t t') (h' : Guarded t' t'') : Guarded t t'' :=
  fun q hq => (h' q hq).trans (h q hq)

end

/-! ## looking up -/

section
variable {host : Host} {t t' : Tree} {path : Path} {cwd loc : Loc}

theorem resolve_of_canonicalize (h : t.canonicalize cwd path = .ok loc) :
    t.resolve cwd path = .found loc := by
  unfold Tree.canonicalize at h
  split at h
  · next hfound =>
    rw [hfound, Except.ok.inj h]
  · cases h
  · cases h

theorem solid_of_canonicalize (h : t.canonicalize cwd path = .ok loc) : t.Solid loc := by
  have hends := Tree.resolve_ends (t := t) cwd path
  rwa [resolve_of_canonicalize h] at hends

theorem resolveParent_snoc {parent dir : Loc} {name name' : String} (hsolid : t.Solid parent)
    (h : t.resolveParent cwd (.ofLoc (parent ++ [name])) = .ok (dir, name')) :
    dir = parent ∧ name' = name := by
  rw [Tree.resolveParent_ofLoc hsolid] at h
  split at h
  · cases Except.ok.inj h
    exact ⟨rfl, rfl⟩
  · cases h

theorem canonicalize_of_validatePath (h : host.validatePath t path = .ok loc) :
    path.isEmpty = false ∧ t.canonicalize host.cwd path = .ok loc := by
  unfold Host.validatePath at h
  cases hnormalised : validatePathSyntax path with
  | error =>
    rw [hnormalised] at h
    cases h
  | ok =>
    rw [hnormalised] at h
    constructor
    · unfold validatePathSyntax at hnormalised
      split at hnormalised
      · cases hnormalised
      · next hempty => exact eq_false_of_ne_true hempty
    cases hcanonical : t.canonicalize host.cwd path with
    | error =>
      simp only [hcanonical] at h
      cases h
    | ok loc' =>
      simp only [hcanonical] at h
      rw [Except.ok.inj h]

theorem named_of_validateDeletePath (h : host.validateDeletePath t path = .ok loc) :
    ∃ parent name, loc = parent ++ [name] ∧ t.Solid parent ∧ host.namedEntry t path = some loc := by
  unfold Host.validateDeletePath at h
  cases hnormalised : validatePathSyntax path with
  | error =>
    rw [hnormalised] at h
    cases h
  | ok =>
    rw [hnormalised] at h
    unfold Host.namedEntry
    cases hname : fileName path with
    | none =>
      simp only [hname] at h
      cases h
    | some name =>
      cases hparent : t.canonicalize host.cwd (Host.parentOrCurDir path) with
      | error =>
        simp only [hname, hparent] at h
        cases h
      | ok parent =>
        simp only [hname, hparent] at h
        cases h
        exact ⟨parent, name, rfl, solid_of_canonicalize hparent, rfl⟩

theorem not_named_of_not_readonly {tables : CaseTables} {names : List String}
    (h : isReadonlyPath tables names = false) {name : String} (hname : name ∈ names) :
    ¬ (name = ".git" ∨ name = "node_modules") := by
  have hlower : ∀ word : String, word.toList.all (fun c => ascii c && c.toLower = c) = true →
      lowerCase tables word.toList = word.toList := by
    intro word hword
    have hword : ∀ c ∈ word.toList, ascii c ∧ c.toLower = c := by simpa using hword
    rw [lowerCase_ascii tables fun c hc => (hword c hc).1]
    exact (map_congr_left fun c hc => (hword c hc).2).trans (map_id _)
  have hnot := any_eq_false.mp h name hname
  rintro (rfl | rfl)
  · rw [hlower ".git" (by decide)] at hnot
    exact hnot (by decide)
  · rw [hlower "node_modules" (by decide)] at hnot
    exact hnot (by decide)

theorem not_below_of_not_readonly {tables : CaseTables}
    (h : isReadonlyPath tables loc = false) : ¬ Below loc := by
  rintro ⟨name, hname, hnamed⟩
  exact not_named_of_not_readonly h (mem_of_mem_dropLast hname) hnamed

end

section
variable {host : Host} {t t' : Tree} {loc parent : Loc} {name : String}

theorem removed_or_same {call : Except Errno Tree} (hsolid : t.Solid parent)
    (hcall : ∀ t', call = .ok t' → ∃ dir name',
      t.resolveParent host.cwd (.ofLoc (parent ++ [name])) = .ok (dir, name') ∧
        ∀ q, t'.entry q = if dir ++ [name'] <+: q then none else t.entry q) :
    (ofOutcome (t.outcome call)).1 = t ∧ (ofOutcome (t.outcome call)).2 ≠ .ok () ∨
      Removed t (ofOutcome (t.outcome call)).1 (parent ++ [name]) := by
  cases hresult : call with
  | error => exact .inl ⟨rfl, nofun⟩
  | ok t' =>
    obtain ⟨dir, name', hparent, hentry⟩ := hcall t' hresult
    obtain ⟨rfl, rfl⟩ := resolveParent_snoc hsolid hparent
    exact .inr hentry

theorem deleteEntry_cases (htrash : TakesToTrash host.trash) (path : String) (permanent : Bool) :
    Same t (host.deleteEntry t path permanent).1 ∧
        (host.deleteEntry t path permanent).2 ≠ .ok () ∨
      ∃ leaf, host.namedEntry t (pathBufFrom path) = some leaf ∧
        Removed t (host.deleteEntry t path permanent).1 leaf := by
  have hsame : ∀ e : FsError, Same t t ∧ (.error e : Except FsError Unit) ≠ .ok () :=
    fun e => ⟨fun _ => rfl, nofun⟩
  unfold Host.deleteEntry
  cases hpath : host.validateDeletePath t (pathBufFrom path) with
  | error e => exact .inl (hsame e)
  | ok leaf =>
    obtain ⟨parent, name, rfl, hsolid, hnamed⟩ := named_of_validateDeletePath hpath
    dsimp only
    split
    · exact .inl (hsame _)
    split
    · have hdone : ∀ {call : Except Errno Tree},
          ((ofOutcome (t.outcome call)).1 = t ∧ (ofOutcome (t.outcome call)).2 ≠ .ok () ∨
            Removed t (ofOutcome (t.outcome call)).1 (parent ++ [name])) →
          Same t (ofOutcome (t.outcome call)).1 ∧ (ofOutcome (t.outcome call)).2 ≠ .ok () ∨
            ∃ leaf, host.namedEntry t (pathBufFrom path) = some leaf ∧
              Removed t (ofOutcome (t.outcome call)).1 leaf := by
        rintro call (⟨hsame, hfailed⟩ | hremoved)
        · exact .inl ⟨fun q => by rw [hsame], hfailed⟩
        · exact .inr ⟨_, hnamed, hremoved⟩
      split
      · exact .inl (hsame _)
      · exact hdone (removed_or_same hsolid fun t' h => Tree.removeDirAll_eq h)
      · exact hdone (removed_or_same hsolid fun t' h => Tree.removeFile_eq h)
    · have hok := htrash.ok t (parent ++ [name])
      have hfailed := htrash.failed t (parent ++ [name])
      split
      · next t' hresult =>
        rw [hresult] at hok
        exact .inr ⟨_, hnamed, hok rfl⟩
      · next t' detail hresult =>
        rw [hresult] at hfailed
        exact .inl ⟨hfailed detail rfl, nofun⟩

end

section
variable {host : Host} {t t' : Tree} {path : Path} {cwd loc start : Loc} {name : String}

theorem components_of_fileName (h : fileName path = some name) :
    path.components = path.components.dropLast ++ [.normal name] := by
  unfold fileName at h
  split at h
  · next last hlast =>
    cases h
    exact (dropLast_append_getLast? _ hlast).symm
  · cases h

theorem walk_last {links : Nat} {parent : Loc} {ending : List Component}
    (hending : ending = [] ∨ ending = [.curDir])
    (h : t.walk links parent (.normal name :: ending) = .found loc) :
    t.entry parent = some .dir ∧
      (loc = parent ++ [name] ∨ ∃ target, t.entry (parent ++ [name]) = some (.link target)) := by
  obtain ⟨follow, hfollow⟩ : ∃ follow, t.walk links = t.walkWith follow := by
    cases links with
    | zero => exact ⟨_, rfl⟩
    | succ => exact ⟨_, rfl⟩
  by_cases hdir : t.entry parent = some .dir
  · refine ⟨hdir, ?_⟩
    rw [hfollow] at h
    have hsolid : t.Solid (parent ++ [name]) → loc = parent ++ [name] := by
      intro hsolid
      rw [Tree.walkWith_name hdir hsolid] at h
      rcases hending with rfl | rfl
      · exact (Lookup.found.inj h).symm
      by_cases hd : t.entry (parent ++ [name]) = some .dir
      · rw [Tree.walkWith_cons _ _ hd] at h
        exact (Lookup.found.inj h).symm
      · rw [Tree.walkWith_of_not_dir hd] at h
        cases h
    cases hentry : t.entry (parent ++ [name]) with
    | none =>
      rw [Tree.walkWith_cons _ _ hdir] at h
      simp only [hentry] at h
      split at h <;> cases h
    | some e =>
      cases e with
      | file content => exact .inl (hsolid (.file content hentry))
      | dir => exact .inl (hsolid (.dir hentry))
      | link target => exact .inr ⟨target, rfl⟩
  · rw [Tree.walk_of_not_dir hdir] at h
    cases h

/-- **Where a path leads to is the entry that it names**, or that entry is a link. -/
theorem canonicalize_named (h : t.canonicalize cwd path = .ok loc)
    (hname : fileName path = some name) :
    ∃ parent, t.canonicalize cwd (Host.parentOrCurDir path) = .ok parent ∧
      t.entry parent = some .dir ∧
      (loc = parent ++ [name] ∨ ∃ target, t.entry (parent ++ [name]) = some (.link target)) := by
  have hcomps := components_of_fileName hname
  have hnonempty : path.components ≠ [] := by
    rw [hcomps]
    exact append_ne_nil_of_right_ne_nil _ (cons_ne_nil _ _)
  have hres := resolve_of_canonicalize h
  unfold Tree.resolve at hres
  rw [if_neg (by simp [Path.isEmpty, hnonempty])] at hres
  generalize hstart : (if path.absolute = true then [] else cwd) = start at hres
  have hsteps : path.steps = path.components.dropLast ++ (.normal name ::
      if path.ending = .plain then [] else [.curDir]) := by
    unfold Path.steps
    conv_lhs => rw [hcomps]
    rw [append_assoc]
    rfl
  rw [hsteps] at hres
  obtain ⟨k, hk⟩ := Tree.walk_append (t := t) (cons_ne_nil (Component.normal name)
    (if path.ending = .plain then [] else [.curDir])) maxLinks start path.components.dropLast
  rw [hk] at hres
  cases hparent : t.walk maxLinks start path.components.dropLast with
  | missing =>
    rw [hparent] at hres
    cases hres
  | failed =>
    rw [hparent] at hres
    cases hres
  | found parent =>
    rw [hparent] at hres
    have hending : (if path.ending = .plain then [] else [Component.curDir]) = [] ∨
        (if path.ending = .plain then [] else [Component.curDir]) = [.curDir] := by
      split
      · exact .inl rfl
      · exact .inr rfl
    obtain ⟨hdir, hlast⟩ := walk_last hending hres
    refine ⟨parent, ?_, hdir, hlast⟩
    have hup : t.resolve cwd (Host.parentOrCurDir path) = .found parent := by
      unfold Host.parentOrCurDir Path.parent
      rw [if_neg hnonempty]
      dsimp only
      split
      · next hempty =>
        -- a single name: the directory above is `cwd`
        simp only [Path.isEmpty, Bool.and_eq_true, Bool.not_eq_true', decide_eq_true_eq] at hempty
        rw [hempty.1, if_neg Bool.false_ne_true] at hstart
        rw [hempty.2] at hparent
        subst hstart
        obtain rfl := Lookup.found.inj hparent
        show t.walkWith _ cwd [.curDir] = _
        rw [Tree.walkWith_cons _ _ hdir]
        rfl
      · next hempty =>
        unfold Tree.resolve
        rw [if_neg hempty]
        dsimp only [Path.steps]
        rw [hstart, if_pos rfl, append_nil]
        exact hparent
    unfold Tree.canonicalize
    rw [hup]

theorem moved_of_rename {refuses : Loc → Loc → Bool} {parent dir : Loc} {name' : String}
    (hparent : t.Solid parent) (hdir : t.Solid dir)
    (h : t.rename cwd refuses (.ofLoc (parent ++ [name])) (.ofLoc (dir ++ [name'])) = .ok t')
    (hdest : t.entry (dir ++ [name']) = none) :
    t.entry (parent ++ [name]) ≠ none ∧ ¬ parent ++ [name] <+: dir ++ [name'] ∧
      Moved t t' (parent ++ [name]) (dir ++ [name']) := by
  obtain ⟨sourceDir, sourceName, destDir, destName, hsource, htarget, hentry, hcase⟩ :=
    Tree.rename_eq h
  obtain ⟨rfl, rfl⟩ := resolveParent_snoc hparent hsource
  obtain ⟨rfl, rfl⟩ := resolveParent_snoc hdir htarget
  rcases hcase with ⟨hsame, -⟩ | ⟨hinto, hmoved⟩
  · rw [hsame] at hentry
    exact absurd hdest hentry
  · refine ⟨hentry, hinto, fun q => ?_⟩
    rw [hmoved q, length_append, length_singleton]

theorem renameEntry_right {oldPath newName : String}
    (h : Meets host t (.renameEntry oldPath newName)) :
    ActsOnNamed host t (.renameEntry oldPath newName) ∧
      Guarded t (host.renameEntry t oldPath newName).1 := by
  obtain ⟨hfile, hleaf⟩ := h
  obtain ⟨name, hname⟩ := ne_none_iff_exists'.mp hfile
  suffices hcases : (host.renameEntry t oldPath newName).1 = t ∧
        (host.renameEntry t oldPath newName).2 ≠ .ok () ∨
      ∃ leaf, host.namedEntry t (pathBufFrom oldPath) = some leaf ∧
        RemovesOnly t (host.renameEntry t oldPath newName).1 leaf ∧
        Guarded t (host.renameEntry t oldPath newName).1 by
    rcases hcases with ⟨hsame, hfailed⟩ | ⟨leaf, hnamed, hremoves, hguarded⟩
    · exact ⟨fun _ _ hok => absurd hok hfailed, fun q _ => by rw [hsame]⟩
    · refine ⟨fun path hpath _ => ?_, hguarded⟩
      cases hpath
      exact ⟨leaf, hnamed, hremoves, hremoves.keepsTarget⟩
  unfold Host.renameEntry
  cases validateFilename newName with
  | error => exact .inl ⟨rfl, nofun⟩
  | ok _ =>
    cases hpath : host.validatePath t (pathBufFrom oldPath) with
    | error => exact .inl ⟨rfl, nofun⟩
    | ok source =>
      obtain ⟨-, hcanonical⟩ := canonicalize_of_validatePath hpath
      obtain ⟨parent, hparent, hdir, hsource⟩ := canonicalize_named hcanonical hname
      have hnamed : host.namedEntry t (pathBufFrom oldPath) = some (parent ++ [name]) := by
        unfold Host.namedEntry
        rw [hname, hparent]
      obtain ⟨hlink, hdest, hleaves, harrives⟩ := hleaf _ hnamed
      -- the entry is no link, so it is where the path leads to
      obtain rfl : source = parent ++ [name] := hsource.resolve_right fun ⟨target, ht⟩ => hlink target ht
      rw [dropLast_concat] at hdest harrives
      simp only [dropLast_concat]
      split
      · exact .inl ⟨rfl, nofun⟩
      split
      · exact .inl ⟨rfl, nofun⟩
      split
      · exact .inl ⟨rfl, nofun⟩
      cases hrename : t.rename host.cwd host.refuses (.ofLoc (parent ++ [name]))
          (.ofLoc (parent ++ [newName])) with
      | error e => exact .inl ⟨rfl, nofun⟩
      | ok t' =>
        obtain ⟨hentry, hinto, hmoved⟩ :=
          moved_of_rename (.dir hdir) (.dir hdir) hrename hdest
        exact .inr ⟨_, hnamed, hmoved.removesOnly hentry hdest hinto,
          hmoved.guarded hdest hleaves harrives⟩

end

/-! ## copies -/

section
variable {host : Host} {t t' : Tree} {source dest parent : Loc} {name : String}

theorem guarded_of_put {loc : Loc} {e : Entry}
    (hentry : ∀ q, t'.entry q = if q = loc then some e else t.entry q) (hloc : ¬ Below loc) :
    Guarded t t' := by
  intro q hq
  have hne : q ≠ loc := by
    rintro rfl
    exact hloc hq
  rw [hentry, if_neg hne]

theorem write_guarded {cwd : Loc} {path : Path} {content : String}
    (hexists : t.pathExists cwd path = false)
    (hclear : ∀ dir name, t.resolve cwd path = .missing dir name → ¬ Below (dir ++ [name]))
    (hwrite : t.write cwd path content = .ok t') : Guarded t t' := by
  rcases Tree.write_eq hwrite with ⟨loc, old, hfound, -⟩ | ⟨dir, name, hmissing, -, -, hentry⟩
  · unfold Tree.pathExists at hexists
    rw [hfound] at hexists
    cases hexists
  · exact guarded_of_put hentry (hclear dir name hmissing)

theorem outcome_guarded {call : Except Errno Tree} (h : ∀ t', call = .ok t' → Guarded t t') :
    Guarded t (ofOutcome (t.outcome call)).1 := by
  cases hcall : call with
  | error => exact fun _ _ => rfl
  | ok t' => exact h t' hcall

theorem ofOutcome_fst (result : Outcome) : (ofOutcome result).1 = result.1 := by
  obtain ⟨t, _ | _⟩ := result <;> rfl

theorem arrives_outside (hsource : t.entry source ≠ none) (hdest : t.entry dest = none)
    (hinto : ¬ source <+: dest) (harrives : ArrivesClear t source dest) (s : Tree)
    (hs : Copying t dest (¬ Below ·) s) (below : Loc) (hentry : s.entry (source ++ below) ≠ none) :
    ¬ Below (dest ++ below) := by
  have hout : ¬ dest <+: source ++ below := by
    intro hpre
    rcases prefix_or_prefix_of_prefix hpre (prefix_append source below) with hpre | hpre
    · exact hsource (entry_none_below hdest hpre)
    · exact hinto hpre
  rw [hs.outside _ hout] at hentry
  exact harrives below hentry

theorem arrives_inside (hnames : ∀ name ∈ dest, ¬ (name = ".git" ∨ name = "node_modules"))
    (hsource : t.entry source ≠ none) (hdest : t.entry dest = none)
    (harrives : ArrivesClear t source dest) (s : Tree) (hs : Copying t dest (¬ Below ·) s)
    (below : Loc) (hentry : s.entry (source ++ below) ≠ none) : ¬ Below (dest ++ below) := by
  by_cases hin : dest <+: source ++ below
  · rcases prefix_or_prefix_of_prefix hin (prefix_append source below) with hpre | hpre
    · exact absurd (entry_none_below hdest hpre) hsource
    obtain ⟨way, rfl⟩ := hpre
    have hclear := (hs.within _ hin hentry).2
    obtain ⟨rest, hrest⟩ := hin
    rw [append_assoc] at hrest
    obtain rfl := append_cancel_left hrest
    rw [← append_assoc] at hclear
    rintro ⟨name, hname, hnamed⟩
    have hway : name ∉ source ++ way := fun h => hnames name h hnamed
    by_cases hnil : rest = []
    · subst hnil
      have hmem := mem_of_mem_dropLast hname
      rw [append_nil, mem_append] at hmem
      exact hmem.elim hway fun h => hway (mem_append_right _ h)
    rw [← append_assoc, dropLast_append_of_ne_nil hnil, mem_append, mem_append] at hname
    rcases hname with (h | h) | h
    · exact hway h
    · exact hway (mem_append_right _ h)
    · refine hclear ⟨name, ?_, hnamed⟩
      rw [dropLast_append_of_ne_nil hnil]
      exact mem_append_right _ h
  · rw [hs.outside _ hin] at hentry
    exact harrives below hentry

theorem copyDir_keeps {cwd : Loc} {depth : Nat} (hsource : t.entry source ≠ none)
    (hdest : t.entry (parent ++ [name]) = none) (hdir : t.entry parent = some .dir)
    (harrives : ∀ s, Copying t (parent ++ [name]) (¬ Below ·) s → ∀ below,
      s.entry (source ++ below) ≠ none → ¬ Below (parent ++ [name] ++ below)) :
    Keeps t (parent ++ [name]) (¬ Below ·) t
      (copyDirRecursive cwd depth t source (parent ++ [name])).1 := by
  have hkeeps : Keeps t (parent ++ [name]) (¬ Below ·) t
      (copyDirRecursive cwd depth t (source ++ []) (parent ++ [name] ++ [])).1 :=
    copyDirRecursive_keeps harrives depth t [] parent name (Copying.start hdest)
      (by rwa [append_nil]) (append_nil _) hdir
  rwa [append_nil, append_nil] at hkeeps

theorem copyDirRecursive_of_link {cwd : Loc} {depth : Nat} (hdir : t.entry parent = some .dir)
    (hsome : t.entry (parent ++ [name]) ≠ none)
    (hexists : t.pathExists cwd (.ofLoc (parent ++ [name])) = false) :
    (copyDirRecursive cwd depth t source (parent ++ [name])).1 = t := by
  cases depth with
  | zero => rfl
  | succ =>
    have hnotDir : t.isDir cwd (.ofLoc (parent ++ [name])) = false := by
      unfold Tree.pathExists at hexists
      unfold Tree.isDir
      split
      · next loc hfound =>
        rw [hfound] at hexists
        cases hexists
      · rfl
    unfold copyDirRecursive
    rcases @Tree.createDirAll_ofLoc t cwd parent name hdir with ⟨hnone, -⟩ | ⟨-, heq⟩
    · exact absurd hnone hsome
    rw [heq]
    unfold Tree.createDirOr
    rw [hnotDir]
    rfl

theorem copyEntry_guarded {src destDir : String} (h : Meets host t (.copyEntry src destDir)) :
    Guarded t (host.copyEntry t src destDir).1 := by
  have hsame : Guarded t t := fun _ _ => rfl
  unfold Host.copyEntry
  cases hsrc : host.validatePath t (pathBufFrom src) with
  | error => exact hsame
  | ok source =>
    obtain ⟨-, hsource⟩ := canonicalize_of_validatePath hsrc
    cases hdst : host.validatePath t (pathBufFrom destDir) with
    | error => exact hsame
    | ok destParent =>
      obtain ⟨-, hdest⟩ := canonicalize_of_validatePath hdst
      dsimp only
      split
      · exact hsame
      next hdir =>
      have hdir : t.entry destParent = some .dir := not_not.mp hdir
      split
      · exact hsame
      next hself =>
      split
      · exact hsame
      next name hlast =>
      have hclear := h source destParent name hsource hdest hlast
      split
      · exact hsame
      next hexists =>
      have hexists := eq_false_of_ne_true hexists
      by_cases hsourceDir : t.entry source = some .dir
      · rw [if_pos hsourceDir, ofOutcome_fst]
        rw [if_pos hsourceDir] at hclear
        have hentry : t.entry source ≠ none := by rw [hsourceDir]; exact nofun
        by_cases hnone : t.entry (destParent ++ [name]) = none
        · have hinto : ¬ source <+: destParent ++ [name] := by
            intro hpre
            rcases prefix_concat_iff.mp hpre with heq | hpre
            · rw [heq] at hentry
              exact hentry hnone
            · exact hself ⟨hsourceDir, hpre⟩
          exact (copyDir_keeps hentry hnone hdir
            (arrives_outside hentry hnone hinto hclear)).copying.guarded hnone
        · -- a link that leads to nothing: no directory is made
          rw [copyDirRecursive_of_link hdir hnone hexists]
          exact hsame
      · rw [if_neg hsourceDir]
        rw [if_neg hsourceDir] at hclear
        refine outcome_guarded fun t' hcopy => ?_
        obtain ⟨content, hwrite⟩ := Tree.copy_eq hcopy
        exact write_guarded hexists hclear hwrite

end

section
variable {host : Host} {t t' : Tree} {source dest parent dir : Loc} {name name' : String}

theorem symlinkMetadata_eq {cwd : Loc} {e : Entry} (hsolid : t.Solid parent)
    (h : t.symlinkMetadata cwd (.ofLoc (parent ++ [name])) = .ok e) :
    t.entry (parent ++ [name]) = some e := by
  unfold Tree.symlinkMetadata at h
  split at h
  · cases h
  next dir name' hparent =>
  obtain ⟨rfl, rfl⟩ := resolveParent_snoc hsolid hparent
  split at h
  · cases h
  · next e' hentry =>
    rw [hentry, Except.ok.inj h]

/-- **The source is removed behind a copy**, or the call fails. -/
theorem removed_behind_copy {call : Except Errno Tree} (hparent : t.entry parent = some .dir)
    (hdest : t.entry dest = none) (hleaves : LeavesClear t (parent ++ [name]))
    (hkeeps : Keeps t dest (¬ Below ·) t t')
    (hcall : ∀ t'', call = .ok t'' → ∃ dir name',
      t'.resolveParent host.cwd (.ofLoc (parent ++ [name])) = .ok (dir, name') ∧
        ∀ q, t''.entry q = if dir ++ [name'] <+: q then none else t'.entry q) :
    Guarded t (ofOutcome (t'.outcome call)).1 ∧
      ((ofOutcome (t'.outcome call)).2 = .ok () →
        RemovesOnly t (ofOutcome (t'.outcome call)).1 (parent ++ [name])) := by
  have hcopied := hkeeps.copying.guarded hdest
  rcases removed_or_same (.dir (hkeeps.dirs _ hparent)) hcall with ⟨hsame, hfailed⟩ | hremoved
  · rw [hsame]
    exact ⟨hcopied, fun hok => absurd hok hfailed⟩
  refine ⟨hcopied.trans (hremoved.guarded fun q hq hentry => ?_),
    fun _ => RemovesOnly.of_copy hkeeps.copying hremoved hdest⟩
  by_cases hin : dest <+: q
  · exact (hkeeps.copying.within q hin hentry).2
  · rw [hkeeps.copying.outside q hin] at hentry
    exact hleaves q hq hentry

theorem moveByCopy_right {e : Entry} (hparent : t.entry parent = some .dir)
    (hentry : t.entry (parent ++ [name]) = some e) (hdir : t.entry dir = some .dir)
    (hdest : t.entry (dir ++ [name']) = none) (hleaves : LeavesClear t (parent ++ [name]))
    (harrives : ArrivesClear t (parent ++ [name]) (dir ++ [name']))
    (hnames : ∀ n ∈ dir ++ [name'], ¬ (n = ".git" ∨ n = "node_modules")) :
    Guarded t (host.moveByCopy t (parent ++ [name]) (dir ++ [name']) e).1 ∧
      ((host.moveByCopy t (parent ++ [name]) (dir ++ [name']) e).2 = .ok () →
        RemovesOnly t (host.moveByCopy t (parent ++ [name]) (dir ++ [name']) e).1
          (parent ++ [name])) := by
  have hsome : t.entry (parent ++ [name]) ≠ none := by rw [hentry]; exact nofun
  have hclear : ¬ Below (dir ++ [name']) := by
    have hclear := harrives [] (by rwa [append_nil])
    rwa [append_nil] at hclear
  cases e with
  | link => exact ⟨fun _ _ => rfl, nofun⟩
  | dir =>
    have hkeeps : Keeps t (dir ++ [name']) (¬ Below ·) t
        (copyDirRecursive host.cwd host.pathMax t (parent ++ [name]) (dir ++ [name'])).1 :=
      copyDir_keeps hsome hdest hdir (arrives_inside hnames hsome hdest harrives)
    unfold Host.moveByCopy
    dsimp only
    split
    · next t' e hresult =>
      rw [hresult] at hkeeps
      exact ⟨hkeeps.copying.guarded hdest, nofun⟩
    · next t' hresult =>
      rw [hresult] at hkeeps
      exact removed_behind_copy hparent hdest hleaves hkeeps fun t'' h => Tree.removeDirAll_eq h
  | file =>
    unfold Host.moveByCopy
    dsimp only
    split
    · exact ⟨fun _ _ => rfl, nofun⟩
    next t' hcopy =>
    obtain ⟨content', hwrite⟩ := Tree.copy_eq hcopy
    exact removed_behind_copy hparent hdest hleaves
      (write_keeps (Copying.start hdest) hdir prefix_rfl hclear hwrite)
      fun t'' h => Tree.removeFile_eq h

theorem moveEntry_right {src destDir : String} (h : Meets host t (.moveEntry src destDir)) :
    ActsOnNamed host t (.moveEntry src destDir) ∧
      Guarded t (host.moveEntry t src destDir).1 := by
  suffices hcases : Guarded t (host.moveEntry t src destDir).1 ∧
      ((host.moveEntry t src destDir).2 = .ok () →
        ∃ leaf, host.namedEntry t (pathBufFrom src) = some leaf ∧
          RemovesOnly t (host.moveEntry t src destDir).1 leaf) by
    refine ⟨fun path hpath hok => ?_, hcases.1⟩
    cases hpath
    obtain ⟨leaf, hnamed, hremoves⟩ := hcases.2 hok
    exact ⟨leaf, hnamed, hremoves, hremoves.keepsTarget⟩
  have hsame : ∀ e : FsError, Guarded t t ∧ ((.error e : Except FsError Unit) = .ok () →
      ∃ leaf, host.namedEntry t (pathBufFrom src) = some leaf ∧ RemovesOnly t t leaf) :=
    fun e => ⟨fun _ _ => rfl, nofun⟩
  unfold Host.moveEntry
  cases hsrc : host.validateDeletePath t (pathBufFrom src) with
  | error e => exact hsame e
  | ok =>
    obtain ⟨parent, name, rfl, hsolid, hnamed⟩ := named_of_validateDeletePath hsrc
    dsimp only
    split
    · exact hsame _
    next hreadonly =>
    cases hdst : host.validatePath t (pathBufFrom destDir) with
    | error e => exact hsame e
    | ok destParent =>
      obtain ⟨-, hcanonical⟩ := canonicalize_of_validatePath hdst
      dsimp only
      split
      · exact hsame _
      next hdir =>
      have hdir : t.entry destParent = some .dir := not_not.mp hdir
      rw [getLast?_concat]
      dsimp only
      obtain ⟨hdest, hleaves, harrives⟩ :=
        h (parent ++ [name]) destParent name hnamed hcanonical getLast?_concat
      split
      · exact hsame _
      split
      · exact hsame _
      next e hmeta =>
      have hentry := symlinkMetadata_eq hsolid hmeta
      have hsome : t.entry (parent ++ [name]) ≠ none := by rw [hentry]; exact nofun
      have hparent : t.entry parent = some .dir := t.closed parent name hsome
      have hnames : ∀ n ∈ destParent ++ [name], ¬ (n = ".git" ∨ n = "node_modules") := by
        intro n hn
        rcases mem_append.mp hn with hn | hn
        · have hclear := harrives [] (by rwa [append_nil])
          rw [append_nil] at hclear
          exact fun hnamed => hclear ⟨n, by rwa [dropLast_concat], hnamed⟩
        · exact not_named_of_not_readonly (eq_false_of_ne_true hreadonly)
            (mem_append_right _ hn)
      cases hrename : t.rename host.cwd host.refuses (.ofLoc (parent ++ [name]))
          (.ofLoc (destParent ++ [name])) with
      | ok t' =>
        obtain ⟨-, hinto, hmoved⟩ := moved_of_rename hsolid (.dir hdir) hrename hdest
        exact ⟨hmoved.guarded hdest hleaves harrives,
          fun _ => ⟨_, hnamed, hmoved.removesOnly hsome hdest hinto⟩⟩
      | error _ =>
        obtain ⟨hguarded, hremoves⟩ := moveByCopy_right hparent hentry hdir hdest
          hleaves harrives hnames
        exact ⟨hguarded, fun hok => ⟨_, hnamed, hremoves hok⟩⟩

end

/-! ## new and written files -/

section
variable {host : Host} {t t' : Tree} {path : Path}

theorem checkCreate_ok {text : String} (h : host.checkCreate t path text = .ok ()) :
    t.pathExists host.cwd path = false ∧
      ∀ parent, path.parent = some parent → ∃ loc, host.validatePath t parent = .ok loc := by
  unfold Host.checkCreate at h
  have hrest : (if isReadonlyPath host.tables (normalNames path) then
        Except.error (FsError.message text)
      else if t.pathExists host.cwd path then .error (.alreadyExists path) else
        path.parent.elim (.ok ()) fun parent => (host.validatePath t parent).map fun _ => ()) =
          .ok () := by
    cases hname : fileName path with
    | none =>
      simp only [hname] at h
      cases hp : path.parent <;> rw [hp] at h <;> exact h
    | some name =>
      simp only [hname] at h
      cases hvalid : validateFilename name with
      | error =>
        rw [hvalid] at h
        cases h
      | ok =>
        rw [hvalid] at h
        cases hp : path.parent <;> rw [hp] at h <;> exact h
  split at hrest
  · cases hrest
  split at hrest
  · cases hrest
  next hexists =>
  refine ⟨eq_false_of_ne_true hexists, fun parent hparent => ?_⟩
  simp only [hparent, Option.elim_some] at hrest
  cases hvalid : host.validatePath t parent with
  | error =>
    rw [hvalid] at hrest
    cases hrest
  | ok loc => exact ⟨loc, rfl⟩

theorem createFile_guarded {path : String} (h : Meets host t (.createFile path)) :
    Guarded t (host.createFile t path).1 := by
  unfold Host.createFile
  cases hcheck : host.checkCreate t (pathBufFrom path) "Cannot create file in read-only path" with
  | error => exact fun _ _ => rfl
  | ok =>
    exact outcome_guarded fun t' hwrite => write_guarded (checkCreate_ok hcheck).1 h hwrite

theorem createDir_ne_notFound {cwd : Loc} (hparent : ∀ parent, path.parent = some parent →
      parent.isEmpty = false ∧ ∃ loc, t.canonicalize cwd parent = .ok loc) :
    t.createDir cwd path ≠ .error .notFound := by
  intro h
  unfold Tree.createDir at h
  split at h
  · next e hup =>
    cases h
    unfold Tree.resolveParent at hup
    split at hup
    · cases hup
    · next name _ hlast _ =>
      have hnonempty : path.components ≠ [] := by
        intro hnil
        rw [hnil] at hlast
        cases hlast
      obtain ⟨hempty, loc, hcanonical⟩ := hparent _ (if_neg hnonempty)
      have hfound := resolve_of_canonicalize hcanonical
      unfold Tree.resolve Path.steps at hfound
      rw [hempty, if_neg Bool.false_ne_true, if_pos rfl, append_nil] at hfound
      rw [hfound] at hup
      dsimp only at hup
      split at hup <;> cases hup
    · cases hup
  · split at h
    · split at h <;> cases h
    · cases h

theorem createDirAll_cases {cwd : Loc} (hparent : ∀ parent, path.parent = some parent →
      parent.isEmpty = false ∧ ∃ loc, t.canonicalize cwd parent = .ok loc) :
    (t.createDirAll cwd path).1 = t ∨
      t.createDir cwd path = .ok (t.createDirAll cwd path).1 := by
  have hor : ∀ e, (t.createDirOr cwd path e).1 = t := by
    intro e
    unfold Tree.createDirOr
    split <;> rfl
  unfold Tree.createDirAll Tree.createDirAllWith
  split
  · exact .inl rfl
  cases hmade : t.createDir cwd path with
  | ok => exact .inr rfl
  | error e =>
    dsimp only
    have hne : e ≠ .notFound := by
      rintro rfl
      exact createDir_ne_notFound hparent hmade
    rw [if_pos hne]
    exact .inl (hor e)

theorem createDirectory_guarded {path : String} (h : Meets host t (.createDirectory path)) :
    Guarded t (host.createDirectory t path).1 := by
  unfold Host.createDirectory
  cases hcheck : host.checkCreate t (pathBufFrom path)
      "Cannot create directory in read-only path" with
  | error e => exact fun _ _ => rfl
  | ok _ =>
    rw [ofOutcome_fst]
    have hparent : ∀ parent, (pathBufFrom path).parent = some parent →
        parent.isEmpty = false ∧ ∃ loc, t.canonicalize host.cwd parent = .ok loc := by
      intro parent hparent
      obtain ⟨loc, hvalid⟩ := (checkCreate_ok hcheck).2 parent hparent
      obtain ⟨hempty, hcanonical⟩ := canonicalize_of_validatePath hvalid
      exact ⟨hempty, loc, hcanonical⟩
    rcases createDirAll_cases hparent with hsame | hmade
    · rw [hsame]
      exact fun _ _ => rfl
    · obtain ⟨dir, name, hup, -, hnone, hentry⟩ := Tree.createDir_eq hmade
      exact guarded_of_put hentry (h dir name hup hnone)

theorem writeFile_guarded {path content : String} :
    Guarded t (host.writeFile t path content).1 := by
  unfold Host.writeFile
  cases hpath : host.validatePath t (pathBufFrom path) with
  | error => exact fun _ _ => rfl
  | ok loc =>
    dsimp only
    split
    · exact fun _ _ => rfl
    next hreadonly =>
    split
    · exact fun _ _ => rfl
    refine outcome_guarded fun t' hwrite => ?_
    have hfound : t.resolve host.cwd (.ofLoc loc) = .found loc :=
      Tree.resolve_ofLoc (solid_of_canonicalize (canonicalize_of_validatePath hpath).2)
    rcases Tree.write_eq hwrite with ⟨loc', old, hloc, -, hentry⟩ | ⟨_, _, hmissing, -⟩
    · rw [hfound] at hloc
      obtain rfl := Lookup.found.inj hloc
      exact guarded_of_put hentry (not_below_of_not_readonly (eq_false_of_ne_true hreadonly))
    · rw [hfound] at hmissing
      cases hmissing

end

def sampleHost : Host where
  tables := asciiTables
  cwd := []
  refuses _ _ := false
  pathMax := 16
  trash t leaf :=
    match leaf.getLast? with
    | none => (t, some "not found")
    | some name =>
      if t.entry leaf = none then (t, some "not found") else (t.removeAt leaf.dropLast name, none)

theorem sampleHost_trash : TakesToTrash sampleHost.trash := by
  have hcases : ∀ t leaf, sampleHost.trash t leaf = (t, some "not found") ∨
      ∃ dir name, leaf = dir ++ [name] ∧ sampleHost.trash t leaf = (t.removeAt dir name, none) := by
    intro t leaf
    unfold sampleHost
    dsimp only
    split
    · exact .inl rfl
    next name hlast =>
    split
    · exact .inl rfl
    · exact .inr ⟨_, name, (dropLast_append_getLast? name hlast).symm, rfl⟩
  constructor
  · intro t leaf hok
    rcases hcases t leaf with h | ⟨dir, name, rfl, h⟩
    · rw [h] at hok
      cases hok
    · rw [h]
      exact fun _ => rfl
  · intro t leaf detail hfailed
    rcases hcases t leaf with h | ⟨dir, name, rfl, h⟩
    · rw [h]
      exact fun _ => rfl
    · rw [h] at hfailed
      cases hfailed

/-- `home/link` leads to `home/data` -/
def sampleTree : Tree :=
  (((Tree.bare.create [] "home" .dir (by decide) (by decide)).create ["home"] "data" .dir
    (by decide) (by decide)).create ["home", "data"] "a.txt" (.file "a")
    (by decide) (by decide)).create ["home"] "link" (.link ⟨false, [.normal "data"], .plain⟩)
    (by decide) (by decide)

end CcPanes.Files

import CcPanes.Files.FileSystemService

/-!
# What a copy changes

`copy_dir_recursive` reads the source while it writes the copy, and the copy may lie in the source.
-/

namespace CcPanes.Files
open FileTree List

structure Copying (t₀ : Tree) (dest : Loc) (allowed : Loc → Prop) (t : Tree) : Prop where
  outside : ∀ q, ¬ dest <+: q → t.entry q = t₀.entry q
  within : ∀ q, dest <+: q → t.entry q ≠ none → t.Solid q ∧ allowed q

structure Keeps (t₀ : Tree) (dest : Loc) (allowed : Loc → Prop) (t t' : Tree) : Prop where
  copying : Copying t₀ dest allowed t'
  dirs : ∀ q, t.entry q = some .dir → t'.entry q = some .dir

section
variable {t₀ t t' t'' : Tree} {dest : Loc} {allowed : Loc → Prop}

theorem Copying.start (h : t₀.entry dest = none) : Copying t₀ dest allowed t₀ where
  outside _ _ := rfl
  within := by
    rintro q ⟨below, rfl⟩ hentry
    by_cases hnil : below = []
    · rw [hnil, append_nil] at hentry
      exact absurd h hentry
    · exact absurd (t₀.entry_append_eq_none (by simp [h]) hnil) hentry

theorem Keeps.refl (h : Copying t₀ dest allowed t) : Keeps t₀ dest allowed t t :=
  ⟨h, fun _ hdir => hdir⟩

theorem Keeps.trans (h : Keeps t₀ dest allowed t t') (h' : Keeps t₀ dest allowed t' t'') :
    Keeps t₀ dest allowed t t'' :=
  ⟨h'.copying, fun q hdir => h'.dirs q (h.dirs q hdir)⟩

/-- **One entry is put** below `dest`, where no directory is. -/
theorem Keeps.put (h : Copying t₀ dest allowed t) {loc : Loc} {e : Entry}
    (hentry : ∀ q, t'.entry q = if q = loc then some e else t.entry q) (hloc : dest <+: loc)
    (hplain : ∀ target, e ≠ .link target) (hallowed : allowed loc)
    (hdir : t.entry loc ≠ some .dir) : Keeps t₀ dest allowed t t' := by
  refine ⟨⟨fun q hq => ?_, fun q hq hsome => ?_⟩, fun q hq => ?_⟩
  · have hne : q ≠ loc := by
      rintro rfl
      exact hq hloc
    rw [hentry, if_neg hne]
    exact h.outside q hq
  · by_cases heq : q = loc
    · subst heq
      have hput : t'.entry q = some e := by rw [hentry, if_pos rfl]
      cases e with
      | file content => exact ⟨.file content hput, hallowed⟩
      | dir => exact ⟨.dir hput, hallowed⟩
      | link target => exact absurd rfl (hplain target)
    · have hkept : t'.entry q = t.entry q := by rw [hentry, if_neg heq]
      rw [hkept] at hsome
      obtain ⟨hsolid, hq'⟩ := h.within q hq hsome
      refine ⟨?_, hq'⟩
      cases hsolid with
      | dir hd => exact .dir (hkept.trans hd)
      | file content hf => exact .file content (hkept.trans hf)
  · have hne : q ≠ loc := by
      rintro rfl
      exact hdir hq
    rw [hentry, if_neg hne]
    exact hq

variable {cwd dir : Loc} {name : String}

theorem createDirAll_keeps (h : Copying t₀ dest allowed t) (hdir : t.entry dir = some .dir)
    (hloc : dest <+: dir ++ [name]) (hallowed : allowed (dir ++ [name])) :
    Keeps t₀ dest allowed t (t.createDirAll cwd (.ofLoc (dir ++ [name]))).1 ∧
      ((t.createDirAll cwd (.ofLoc (dir ++ [name]))).2 = .ok () →
        (t.createDirAll cwd (.ofLoc (dir ++ [name]))).1.entry (dir ++ [name]) = some .dir) := by
  rcases @Tree.createDirAll_ofLoc t cwd dir name hdir with
    ⟨hnone, -, hentry⟩ | ⟨hsome, heq⟩
  · refine ⟨Keeps.put h hentry hloc (by simp) hallowed (by simp [hnone]), fun _ => ?_⟩
    rw [hentry, if_pos rfl]
  have hsolid := (h.within _ hloc hsome).1
  rw [heq]
  unfold Tree.createDirOr Tree.isDir
  rw [Tree.resolve_ofLoc hsolid]
  by_cases hd : t.entry (dir ++ [name]) = some .dir
  · rw [if_pos (decide_eq_true hd)]
    exact ⟨Keeps.refl h, fun _ => hd⟩
  · rw [if_neg (by simpa using hd)]
    exact ⟨Keeps.refl h, by simp⟩

theorem write_keeps {content : String} (h : Copying t₀ dest allowed t)
    (hdir : t.entry dir = some .dir) (hloc : dest <+: dir ++ [name])
    (hallowed : allowed (dir ++ [name]))
    (hwrite : t.write cwd (.ofLoc (dir ++ [name])) content = .ok t') :
    Keeps t₀ dest allowed t t' := by
  by_cases hnone : t.entry (dir ++ [name]) = none
  · rcases Tree.write_eq hwrite with ⟨loc, old, hfound, -⟩ | ⟨dir', name', hmissing, -, hn, hentry⟩
    · rw [Tree.resolve_ofLoc_missing hdir hnone] at hfound
      cases hfound
    · rw [Tree.resolve_ofLoc_missing hdir hnone] at hmissing
      cases hmissing
      exact Keeps.put h hentry hloc (by simp) hallowed (by simp [hn])
  have hfound : t.resolve cwd (.ofLoc (dir ++ [name])) = .found (dir ++ [name]) :=
    Tree.resolve_ofLoc (h.within _ hloc hnone).1
  rcases Tree.write_eq hwrite with ⟨loc, old, hloc', hfile, hentry⟩ | ⟨_, _, hmissing, -⟩
  · rw [hfound] at hloc'
    cases hloc'
    exact Keeps.put h hentry hloc (by simp) hallowed (by simp [hfile])
  · rw [hfound] at hmissing
    cases hmissing

theorem copy_keeps {source : Path} (h : Copying t₀ dest allowed t)
    (hdir : t.entry dir = some .dir) (hloc : dest <+: dir ++ [name])
    (hallowed : allowed (dir ++ [name])) :
    Keeps t₀ dest allowed t (t.outcome (t.copy cwd source (.ofLoc (dir ++ [name])))).1 := by
  cases hcopy : t.copy cwd source (.ofLoc (dir ++ [name])) with
  | error e => exact Keeps.refl h
  | ok t' =>
    obtain ⟨content, hwrite⟩ := Tree.copy_eq hcopy
    exact write_keeps h hdir hloc hallowed hwrite

theorem copyEntries_inv {I : Tree → Prop} {copyChild : Tree → String → Outcome}
    (hchild : ∀ t name, I t → I (copyChild t name).1) (names : List String) :
    ∀ t, I t → I (copyEntries copyChild t names).1 := by
  induction names with
  | nil => exact fun t ht => ht
  | cons name names ih =>
    intro t ht
    have hnext := hchild t name ht
    unfold copyEntries
    split
    · next hresult =>
      rw [hresult] at hnext
      exact hnext
    · next hresult =>
      rw [hresult] at hnext
      exact ih _ hnext

/-- **The copy of a directory** that is at `source ++ below` goes to `dest ++ below`: what the source
has at any time may be at the place of the copy. -/
theorem copyDirRecursive_keeps {source : Loc}
    (hsource : ∀ t, Copying t₀ dest allowed t → ∀ below, t.entry (source ++ below) ≠ none →
      allowed (dest ++ below)) (depth : Nat) :
    ∀ t below dir name, Copying t₀ dest allowed t → t.entry (source ++ below) ≠ none →
      dest ++ below = dir ++ [name] → t.entry dir = some .dir →
      Keeps t₀ dest allowed t
        (copyDirRecursive cwd depth t (source ++ below) (dest ++ below)).1 := by
  induction depth with
  | zero => exact fun t below dir name h _ _ _ => Keeps.refl h
  | succ depth ih =>
    intro t below dir name h hentry hdest hdir
    have hloc : dest <+: dir ++ [name] := hdest ▸ prefix_append dest below
    have hallowed : allowed (dir ++ [name]) := hdest ▸ hsource t h below hentry
    obtain ⟨hkeeps, hmade⟩ := @createDirAll_keeps t₀ t dest allowed cwd dir name h hdir hloc hallowed
    unfold copyDirRecursive
    rw [hdest]
    split
    · next t' e hresult =>
      rw [hresult] at hkeeps
      exact hkeeps
    next t' hresult =>
    rw [hresult] at hkeeps hmade
    -- the directory of the copy stays, whatever the entries do
    refine hkeeps.trans (copyEntries_inv (I := fun s => Keeps t₀ dest allowed t' s ∧
      s.entry (dir ++ [name]) = some .dir) ?_ _ t' ⟨Keeps.refl hkeeps.copying, hmade rfl⟩).1
    rintro s child ⟨hs, hsdir⟩
    have hstep : ∀ s', Keeps t₀ dest allowed s s' →
        Keeps t₀ dest allowed t' s' ∧ s'.entry (dir ++ [name]) = some .dir :=
      fun _ hstep => ⟨hs.trans hstep, hstep.dirs _ hsdir⟩
    refine hstep _ ?_
    split
    · exact Keeps.refl hs.copying
    · next hchild =>
      rw [← hdest, append_assoc, append_assoc]
      rw [append_assoc] at hchild
      exact ih s (below ++ [child]) (dir ++ [name]) child hs.copying
        (by simp [hchild]) (by rw [← append_assoc, hdest]) hsdir
    next e _ hchild =>
    have hchild' : s.entry (source ++ (below ++ [child])) ≠ none := by
      simp [← append_assoc, hchild]
    refine copy_keeps hs.copying hsdir ?_ ?_
    · rw [← hdest, append_assoc]
      exact prefix_append _ _
    · rw [← hdest, append_assoc]
      exact hsource s hs.copying _ hchild'

end

end CcPanes.Files

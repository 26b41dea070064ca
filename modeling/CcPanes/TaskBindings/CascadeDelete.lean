import CcPanes.TaskBindings.Repository
import Mathlib.Logic.Relation

/-!
# Deleting a task binding with what is below it

`delete_cascade` of `task_binding_repo.rs`: a recursive query collects the rows, a round at a time,
and all of them are deleted in one transaction.  Nothing keeps a row from being its own ancestor.
-/

namespace CcPanes.TaskBindings
open Relation List

def children (t : Table) (parentId : String) : List String :=
  (t.rows.filter fun child => child.parentId = some parentId).map (·.id)

/-- The rows of `WITH RECURSIVE descendants`, joined by `UNION ALL`: a round has the children of the
one before.  `none` if there is a round left after `rounds`. -/
def descendants (t : Table) : Nat → List String → Option (List String)
  | _, [] => some []
  | 0, _ :: _ => none
  | rounds + 1, id :: ids =>
    (descendants t rounds ((id :: ids).flatMap (children t))).map (id :: ids ++ ·)

inductive CascadeFault where
  | query | delete | commit
  deriving DecidableEq

def without (t : Table) (ids : List String) : Table where
  rows := t.rows.filter fun b => b.id ∉ ids
  key := t.key.sublist (List.filter_sublist.map _)

/-- the rows that are left, and the ids that are reported, one event for each -/
def deleteCascade (t : Table) (id : String) (rounds : Nat) (fault : Option CascadeFault) :
    Option (Table × Except CascadeFault (List String)) :=
  if fault = some .query then some (t, .error .query)
  else (descendants t rounds ((findById t id).toList.map (·.id))).map fun ids =>
    if ids = [] then (t, if fault = some .commit then .error .commit else .ok [])
    else
      match fault with
      | some fault => (t, .error fault)
      | none => (without t ids, .ok ids)

def IsChild (t : Table) (parentId id : String) : Prop := id ∈ children t parentId

def Reaches (t : Table) (id x : String) : Prop :=
  (findById t id).isSome ∧ ReflTransGen (IsChild t) id x

/-- a result is right: all that was reachable is gone, each reported once, or nothing is -/
def CascadeRight (t : Table) (id : String) : Table × Except CascadeFault (List String) → Prop
  | (t', .error _) => t' = t
  | (t', .ok ids) => ids.Nodup ∧ (∀ x, x ∈ ids ↔ Reaches t id x) ∧
      t'.rows = t.rows.filter fun b => b.id ∉ ids

/-- the call ends, whatever fails, with a result that is right -/
def Cascades (t : Table) (id : String) : Prop :=
  ∀ fault, ∃ rounds result, deleteCascade t id rounds fault = some result ∧ CascadeRight t id result

/-! ## the rounds -/

def level (t : Table) (id : String) : Nat → List String
  | 0 => (findById t id).toList.map (·.id)
  | k + 1 => (level t id k).flatMap (children t)

section
variable {t : Table} {id x y p p' : String} {i j k n : Nat}

theorem parent_unique (h : IsChild t p x) (h' : IsChild t p' x) : p = p' := by
  obtain ⟨b, hb, hid⟩ := mem_map.mp h
  obtain ⟨b', hb', hid'⟩ := mem_map.mp h'
  simp only [mem_filter, decide_eq_true_eq] at hb hb'
  obtain rfl := inj_on_of_nodup_map t.key hb.1 hb'.1 (hid.trans hid'.symm)
  exact Option.some.inj (hb.2.symm.trans hb'.2)

theorem mem_start : x ∈ level t id 0 ↔ (findById t id).isSome ∧ x = id := by
  show x ∈ (findById t id).toList.map (·.id) ↔ _
  cases h : findById t id with
  | none => simp
  | some b =>
    have hid : b.id = id := by simpa using find?_some h
    simp [hid]

theorem mem_level_succ : x ∈ level t id (k + 1) ↔ ∃ p ∈ level t id k, IsChild t p x :=
  mem_flatMap

theorem exists_level : (∃ k, x ∈ level t id k) ↔ Reaches t id x := by
  constructor
  · rintro ⟨k, hx⟩
    induction k generalizing x with
    | zero =>
      obtain ⟨hid, rfl⟩ := mem_start.mp hx
      exact ⟨hid, .refl⟩
    | succ k ih =>
      obtain ⟨p, hp, hchild⟩ := mem_level_succ.mp hx
      exact ⟨(ih hp).1, (ih hp).2.tail hchild⟩
  · rintro ⟨hid, hreach⟩
    induction hreach with
    | refl => exact ⟨0, mem_start.mpr ⟨hid, rfl⟩⟩
    | tail _ hchild ih =>
      obtain ⟨k, hk⟩ := ih
      exact ⟨k + 1, mem_level_succ.mpr ⟨_, hk, hchild⟩⟩

/-- a binding that is in two rounds is below itself: so is the one that the rounds begin with -/
theorem level_disjoint (h : x ∈ level t id i) (h' : x ∈ level t id j) (hij : i < j) :
    TransGen (IsChild t) id id := by
  induction i generalizing x j with
  | zero =>
    obtain ⟨-, rfl⟩ := mem_start.mp h
    obtain ⟨j, rfl⟩ : ∃ j', j = j' + 1 := ⟨j - 1, by omega⟩
    obtain ⟨p, hp, hchild⟩ := mem_level_succ.mp h'
    exact TransGen.tail' (exists_level.mp ⟨j, hp⟩).2 hchild
  | succ i ih =>
    obtain ⟨j, rfl⟩ : ∃ j', j = j' + 1 := ⟨j - 1, by omega⟩
    obtain ⟨p, hp, hchild⟩ := mem_level_succ.mp h
    obtain ⟨p', hp', hchild'⟩ := mem_level_succ.mp h'
    obtain rfl := parent_unique hchild hchild'
    exact ih hp hp' (by omega)

theorem level_nodup (k : Nat) : (level t id k).Nodup := by
  induction k with
  | zero =>
    show ((findById t id).toList.map (·.id)).Nodup
    cases findById t id <;> simp
  | succ k ih =>
    refine nodup_flatMap.mpr ⟨fun p _ => t.key.sublist (filter_sublist.map _), ?_⟩
    exact ih.imp fun hne x hx hx' => hne (parent_unique hx hx')

theorem level_subset (k : Nat) : ∀ x ∈ level t id k, x ∈ t.rows.map (·.id) := by
  intro x hx
  cases k with
  | zero =>
    obtain ⟨b, hb, rfl⟩ := mem_map.mp hx
    exact mem_map_of_mem (mem_of_find?_eq_some (Option.mem_toList.mp hb))
  | succ =>
    obtain ⟨p, -, hchild⟩ := mem_level_succ.mp hx
    exact (filter_sublist.map _).subset hchild

theorem level_nil_succ (h : level t id k = []) : level t id (k + 1) = [] := by
  simp [level, h]

theorem level_nil_add (h : level t id k = []) (n : Nat) : level t id (k + n) = [] := by
  induction n with
  | zero => exact h
  | succ n ih => exact level_nil_succ ih

def rounds (t : Table) (id : String) (n : Nat) : List String :=
  (List.range n).flatMap (level t id)

theorem rounds_nodup (h : ¬ TransGen (IsChild t) id id) (n : Nat) : (rounds t id n).Nodup := by
  refine nodup_flatMap.mpr ⟨fun k _ => level_nodup k, ?_⟩
  exact pairwise_lt_range.imp fun hlt x hx hx' => h (level_disjoint hx hx' hlt)

theorem le_rounds_length (h : level t id n ≠ []) : n + 1 ≤ (rounds t id (n + 1)).length := by
  induction n with
  | zero =>
    have hpos := length_pos_iff.mpr h
    have hone : rounds t id 1 = level t id 0 := by simp [rounds]
    rw [hone]
    exact hpos
  | succ n ih =>
    have hn : level t id n ≠ [] := fun hnil => h (level_nil_succ hnil)
    have hpos := length_pos_iff.mpr h
    have hstep : rounds t id (n + 2) = rounds t id (n + 1) ++ level t id (n + 1) := by
      simp [rounds, range_succ]
    rw [hstep, length_append]
    have := ih hn
    omega

theorem level_length (h : ¬ TransGen (IsChild t) id id) : level t id t.rows.length = [] := by
  by_contra hne
  have hle := le_rounds_length hne
  have hsub : rounds t id (t.rows.length + 1) ⊆ t.rows.map (·.id) := by
    intro x hx
    obtain ⟨k, -, hk⟩ := mem_flatMap.mp hx
    exact level_subset k x hk
  have hlength := ((rounds_nodup h _).subperm hsub).length_le
  rw [length_map] at hlength
  omega

theorem descendants_level (n k : Nat) (h : level t id (k + n) = []) :
    descendants t n (level t id k) = some ((List.range' k n).flatMap (level t id)) := by
  induction n generalizing k with
  | zero =>
    have hk : level t id k = [] := h
    rw [hk]
    rfl
  | succ n ih =>
    have hnext := ih (k + 1) (by rwa [Nat.add_right_comm, Nat.add_assoc])
    rw [range'_succ, flatMap_cons]
    cases hk : level t id k with
    | nil =>
      rw [level_nil_succ hk] at hnext
      simpa [descendants] using hnext
    | cons y ys =>
      have hlevel : (y :: ys).flatMap (children t) = level t id (k + 1) := by rw [level, hk]
      rw [descendants, hlevel, hnext]
      rfl

/-- a round with a binding that is below itself has a next one -/
theorem descendants_cycle (rounds : Nat) (l : List String) (hx : x ∈ l)
    (hcycle : TransGen (IsChild t) x x) : descendants t rounds l = none := by
  induction rounds generalizing l x with
  | zero =>
    cases l with
    | nil => simp at hx
    | cons => rfl
  | succ rounds ih =>
    obtain ⟨c, hchild, hback⟩ := TransGen.head'_iff.mp hcycle
    cases l with
    | nil => simp at hx
    | cons =>
      rw [descendants, ih _ (mem_flatMap.mpr ⟨x, hx, hchild⟩) (TransGen.tail' hback hchild)]
      rfl

/-- **A cascade ends and is exact**, if and only if the binding is not its own ancestor -/
theorem cascades_iff (t : Table) (id : String) :
    Cascades t id ↔ ¬ TransGen (IsChild t) id id := by
  constructor
  · intro h hcycle
    obtain ⟨rounds, result, hresult, -⟩ := h none
    obtain ⟨p, -, hchild⟩ := TransGen.tail'_iff.mp hcycle
    obtain ⟨b, hb, hid⟩ := mem_map.mp hchild
    have hsome : (findById t id).isSome :=
      find?_isSome.mpr ⟨b, (mem_filter.mp hb).1, by simpa using hid⟩
    have hstart : id ∈ (findById t id).toList.map (·.id) := mem_start.mpr ⟨hsome, rfl⟩
    simp [deleteCascade, descendants_cycle rounds _ hstart hcycle] at hresult
  intro h fault
  have hends : level t id (0 + t.rows.length) = [] := by
    rw [Nat.zero_add]
    exact level_length h
  have hquery := descendants_level t.rows.length 0 hends
  rw [← range_eq_range'] at hquery
  have hmem : ∀ x, x ∈ rounds t id t.rows.length ↔ Reaches t id x := by
    intro x
    rw [← exists_level]
    constructor
    · intro hx
      obtain ⟨k, -, hk⟩ := mem_flatMap.mp hx
      exact ⟨k, hk⟩
    rintro ⟨k, hk⟩
    refine mem_flatMap.mpr ⟨k, mem_range.mpr ?_, hk⟩
    by_contra hle
    have hnil := level_nil_add (level_length h) (k - t.rows.length)
    rw [Nat.add_sub_cancel' (by omega)] at hnil
    rw [hnil] at hk
    cases hk
  refine ⟨t.rows.length, ?_⟩
  unfold deleteCascade
  by_cases hfault : fault = some .query
  · exact ⟨_, if_pos hfault, rfl⟩
  rw [if_neg hfault]
  refine ⟨_, congrArg _ hquery, ?_⟩
  have hright := rounds_nodup h t.rows.length
  change CascadeRight t id (if rounds t id t.rows.length = [] then _ else _)
  split
  · next hnil =>
    split
    · rfl
    · rw [hnil] at hmem
      exact ⟨.nil, hmem, (filter_eq_self.mpr (by simp)).symm⟩
  · cases fault with
    | some => rfl
    | none => exact ⟨hright, hmem, rfl⟩

end

def selfParent : Table where
  rows := [{ id := "a", title := "plan", role := .task, parentId := some "a", projectPath := "/p",
             cliTool := "claude", status := .pending, createdAt := 0, updatedAt := 0 }]
  key := by simp

theorem selfParent_endless : ¬ Cascades selfParent "a" := by
  intro h
  obtain ⟨rounds, result, hresult, -⟩ := h none
  have hcycle : TransGen (IsChild selfParent) "a" "a" :=
    .single (by unfold IsChild; decide)
  have hstart : "a" ∈ (findById selfParent "a").toList.map (·.id) := by decide
  simp [deleteCascade, descendants_cycle rounds _ hstart hcycle] at hresult

end CcPanes.TaskBindings

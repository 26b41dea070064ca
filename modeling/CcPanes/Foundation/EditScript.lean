import Mathlib.Data.List.Basic

/-!
# Edit scripts

A script that leads from an old list to a new one: each element is kept, deleted or inserted.
-/

inductive ChangeTag where
  | equal
  | delete
  | insert
deriving DecidableEq

namespace EditScript
open List
variable {β : Type}

def old? : ChangeTag × β → Option β
  | (.insert, _) => none
  | (_, v) => some v

def new? : ChangeTag × β → Option β
  | (.delete, _) => none
  | (_, v) => some v

def oldSide (script : List (ChangeTag × β)) : List β := script.filterMap old?

def newSide (script : List (ChangeTag × β)) : List β := script.filterMap new?

structure Delivers (old new : List β) (script : List (ChangeTag × β)) : Prop where
  old : oldSide script = old
  new : newSide script = new

def isChange (c : ChangeTag × β) : Bool := c.1 != .equal

theorem oldSide_eq_newSide {script : List (ChangeTag × β)}
    (h : ∀ c ∈ script, isChange c = false) : oldSide script = newSide script := by
  refine filterMap_congr fun c hc => ?_
  obtain ⟨tag, v⟩ := c
  cases tag with
  | equal => rfl
  | delete => cases h _ hc
  | insert => cases h _ hc

theorem oldSide_append (a b : List (ChangeTag × β)) :
    oldSide (a ++ b) = oldSide a ++ oldSide b := filterMap_append ..

theorem newSide_append (a b : List (ChangeTag × β)) :
    newSide (a ++ b) = newSide a ++ newSide b := filterMap_append ..

/-! ## marks -/

def oldMark? : ChangeTag × β → Option (Bool × β)
  | (.equal, v) => some (false, v)
  | (.delete, v) => some (true, v)
  | (.insert, _) => none

def newMark? : ChangeTag × β → Option (Bool × β)
  | (.equal, v) => some (false, v)
  | (.delete, _) => none
  | (.insert, v) => some (true, v)

def oldMarks (script : List (ChangeTag × β)) : List (Bool × β) := script.filterMap oldMark?

def newMarks (script : List (ChangeTag × β)) : List (Bool × β) := script.filterMap newMark?

theorem oldMarks_snd (script : List (ChangeTag × β)) :
    (oldMarks script).map Prod.snd = oldSide script := by
  unfold oldMarks oldSide
  rw [map_filterMap]
  refine filterMap_congr fun c _ => ?_
  obtain ⟨tag, v⟩ := c
  cases tag <;> rfl

theorem newMarks_snd (script : List (ChangeTag × β)) :
    (newMarks script).map Prod.snd = newSide script := by
  unfold newMarks newSide
  rw [map_filterMap]
  refine filterMap_congr fun c _ => ?_
  obtain ⟨tag, v⟩ := c
  cases tag <;> rfl

/-! ## widths -/

/-- the mark of each unit, where an element `v` is `width v` units wide -/
def spread (width : β → Nat) (marks : List (Bool × β)) : List Bool :=
  marks.flatMap fun m => List.replicate (width m.2) m.1

/-- `P` holds of every element up to a marked one -/
def UpToMarks (P : β → Prop) (marks : List (Bool × β)) : Prop :=
  ∀ pre v post, marks = pre ++ (true, v) :: post → P v ∧ ∀ m ∈ pre, P m.2

section
variable {width : β → Nat} {marks : List (Bool × β)}

theorem spread_append (a b : List (Bool × β)) :
    spread width (a ++ b) = spread width a ++ spread width b := flatMap_append

theorem spread_cons (m : Bool × β) (marks : List (Bool × β)) :
    spread width (m :: marks) = List.replicate (width m.2) m.1 ++ spread width marks := rfl

theorem spread_one (h : ∀ m ∈ marks, width m.2 = 1) :
    spread width marks = marks.map Prod.fst := by
  induction marks with
  | nil => rfl
  | cons m marks ih =>
    rw [spread_cons, h m mem_cons_self, ih fun m hm => h m (mem_cons_of_mem _ hm)]
    rfl

theorem le_length_spread (h : ∀ m ∈ marks, 0 < width m.2) :
    marks.length ≤ (spread width marks).length := by
  induction marks with
  | nil => exact Nat.le_refl 0
  | cons m marks ih =>
    have hm := h m mem_cons_self
    have := ih fun m hm => h m (mem_cons_of_mem _ hm)
    rw [spread_cons, length_append, length_replicate, length_cons]
    omega

theorem length_spread_of_agrees (hpos : ∀ m ∈ marks, 0 < width m.2)
    (h : ∀ u : Nat, (spread width marks)[u]? = some true ↔ (marks.map Prod.fst)[u]? = some true)
    (pre : List (Bool × β)) (v : β) (post : List (Bool × β))
    (hmarks : marks = pre ++ (true, v) :: post) :
    (spread width pre).length + width v = pre.length + 1 := by
  induction hn : post.length using Nat.strongRecOn generalizing pre v post with
  | ind n ih =>
    subst hn hmarks
    have hposPre : pre.length ≤ (spread width pre).length :=
      le_length_spread fun m hm => hpos m (mem_append_left _ hm)
    have hposV : 0 < width v := hpos (true, v) (mem_append_right _ mem_cons_self)
    refine Nat.le_antisymm (Nat.le_of_not_lt fun hlt => ?_) (by omega)
    -- the last unit of the element would be a marked index further on
    have hlast : width v - 1 < width v := by omega
    have hunit : (spread width (pre ++ (true, v) :: post))[(spread width pre).length +
        (width v - 1)]? = some true := by
      rw [spread_append, getElem?_append_right (Nat.le_add_right ..), Nat.add_sub_cancel_left,
        spread_cons, getElem?_append_left (by rwa [length_replicate]),
        getElem?_replicate, if_pos hlast]
    rw [h, map_append, getElem?_append_right (by rw [length_map]; omega),
      length_map, map_cons] at hunit
    obtain ⟨k, hk⟩ : ∃ k, (spread width pre).length + (width v - 1) - pre.length = k + 1 :=
      ⟨(spread width pre).length + (width v - 1) - pre.length - 1, by omega⟩
    rw [hk, getElem?_cons_succ, getElem?_map, Option.map_eq_some_iff] at hunit
    obtain ⟨⟨b, w⟩, hw, rfl⟩ := hunit
    obtain ⟨hlt', hget⟩ := List.getElem?_eq_some_iff.mp hw
    have hpost : post = post.take k ++ (true, w) :: post.drop (k + 1) := by
      rw [← hget, ← drop_eq_getElem_cons hlt', take_append_drop]
    have hlen := ih (post.drop (k + 1)).length (by rw [length_drop]; omega)
      (pre ++ (true, v) :: post.take k) w (post.drop (k + 1))
      (by rw [append_assoc, cons_append, ← hpost]) rfl
    have hposTake : (post.take k).length ≤ (spread width (post.take k)).length :=
      le_length_spread fun m hm => hpos m
        (mem_append_right _ (mem_cons_of_mem _ (mem_of_mem_take hm)))
    have hposW : 0 < width w :=
      hpos (true, w) (mem_append_right _ (mem_cons_of_mem _ (mem_of_getElem? hw)))
    rw [spread_append, spread_cons] at hlen
    simp only [length_append, length_replicate, length_cons] at hlen
    omega

theorem width_one_of_length (hpos : ∀ m ∈ marks, 0 < width m.2)
    (h : (spread width marks).length ≤ marks.length) : ∀ m ∈ marks, width m.2 = 1 := by
  induction marks with
  | nil => exact nofun
  | cons m marks ih =>
    have hm := hpos m mem_cons_self
    have hposTail := fun m hm => hpos m (mem_cons_of_mem _ hm)
    have := le_length_spread hposTail
    rw [spread_cons, length_append, length_replicate, length_cons] at h
    intro m' hm'
    obtain rfl | hm' := mem_cons.mp hm'
    · omega
    · exact ih hposTail (by omega) m' hm'

theorem spread_agrees_of_one (h : UpToMarks (fun v => width v = 1) marks) (u : Nat) :
    (spread width marks)[u]? = some true ↔ (marks.map Prod.fst)[u]? = some true := by
  induction marks generalizing u with
  | nil => exact Iff.rfl
  | cons m marks ih =>
    by_cases hany : ∃ v, (true, v) ∈ m :: marks
    · -- the first element comes before a mark, or is marked
      obtain ⟨v, hv⟩ := hany
      obtain ⟨pre, post, hsplit⟩ := append_of_mem hv
      have hm : width m.2 = 1 := by
        cases pre with
        | nil =>
          obtain ⟨rfl, rfl⟩ := cons.inj hsplit
          exact (h [] v _ rfl).1
        | cons m' pre =>
          obtain ⟨rfl, rfl⟩ := cons.inj hsplit
          exact (h (m :: pre) v post rfl).2 m mem_cons_self
      have htail : UpToMarks (fun v => width v = 1) marks := by
        intro pre v post hmarks
        have h' := h (m :: pre) v post (congrArg (m :: ·) hmarks)
        exact ⟨h'.1, fun m' hm' => h'.2 m' (mem_cons_of_mem _ hm')⟩
      rw [spread_cons, hm, map_cons]
      cases u with
      | zero => exact Iff.rfl
      | succ u => exact ih htail u
    · -- nothing is marked
      refine ⟨fun hu => ?_, fun hu => ?_⟩
      · obtain ⟨m', hm', hmem⟩ := mem_flatMap.mp (mem_of_getElem? hu)
        exact absurd ⟨m'.2, by rw [(mem_replicate.mp hmem).2]; exact hm'⟩ hany
      · obtain ⟨m', hm', hmem⟩ := mem_map.mp (mem_of_getElem? hu)
        exact absurd ⟨m'.2, by rw [← hmem]; exact hm'⟩ hany

theorem spread_agrees_iff (hpos : ∀ m ∈ marks, 0 < width m.2) :
    (∀ u : Nat, (spread width marks)[u]? = some true ↔
      (marks.map Prod.fst)[u]? = some true) ↔ UpToMarks (fun v => width v = 1) marks := by
  refine ⟨fun h pre v post hmarks => ?_, fun h u => spread_agrees_of_one h u⟩
  have hlen := length_spread_of_agrees hpos h pre v post hmarks
  subst hmarks
  have hposPre := fun m hm => hpos m (mem_append_left _ hm)
  have hle := le_length_spread hposPre
  have hposV : 0 < width v := hpos (true, v) (mem_append_right _ mem_cons_self)
  exact ⟨by omega, width_one_of_length hposPre (by omega)⟩

end

end EditScript

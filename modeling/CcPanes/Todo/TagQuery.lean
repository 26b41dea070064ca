import CcPanes.Todo.TodoService
import CcPanes.Foundation.LikePattern

/-!
# Todos that have a tag, a page at a time

`TodoRepository::query`: the tags are stored as JSON text, and a tag is looked up by a `LIKE`
pattern with quotes around it.  The bounds of a page are 32-bit numbers, and their sum wraps.
-/

namespace CcPanes.Todos
open LikePattern Option Bool

structure TodoQuery where
  status : Option TodoStatus := none
  priority : Option TodoPriority := none
  scope : Option TodoScope := none
  scopeRef : Option String := none
  search : Option String := none
  tag : Option String := none
  sortBy : Option String := none
  limit : Option UInt32 := none
  offset : Option UInt32 := none
  myDay : Option Bool := none
  todoType : Option String := none
  excludeTodoType : Option String := none
  inbox : Option Bool := none
  overdue : Option Bool := none

/-- the time of a query, as `%Y-%m-%d` and in RFC 3339 -/
structure Clock where
  today : String
  now : String

/-- a character inside a string that `serde_json` writes -/
def escape (c : Char) : List Char :=
  if c = '"' then ['\\', '"']
  else if c = '\\' then ['\\', '\\']
  else if c = '\n' then ['\\', 'n']
  else if c = '\r' then ['\\', 'r']
  else if c = '\t' then ['\\', 't']
  else if c = '\x08' then ['\\', 'b']
  else if c = '\x0c' then ['\\', 'f']
  else if c.toNat < 32 then
    ['\\', 'u', '0', '0', Nat.digitChar (c.toNat / 16), Nat.digitChar (c.toNat % 16)]
  else [c]

def encodeTag (tag : String) : List Char := '"' :: tag.toList.flatMap escape ++ ['"']

/-- the column `tags` -/
def encodeTags (tags : List String) : List Char :=
  '[' :: [','].intercalate (tags.map encodeTag) ++ [']']

def tagPattern (tag : String) : List Char := '%' :: ('"' :: tag.toList ++ ['"']) ++ ['%']

def isMatched (tag : String) (tags : List String) : Bool := like (tagPattern tag) (encodeTags tags)

def contains (search text : String) : Bool := like ('%' :: search.toList ++ ['%']) text.toList

/-- the conditions of a query, but for the one on its tag -/
def otherFilters (clock : Clock) (q : TodoQuery) (todo : TodoItem) : Bool :=
  q.status.all (todo.status = ·) && q.priority.all (todo.priority = ·) &&
  q.scope.all (todo.scope = ·) && q.scopeRef.all (todo.scopeRef = some ·) &&
  q.search.all (fun s => contains s todo.title || contains s todo.description) &&
  q.todoType.all (todo.todoType = ·) && q.excludeTodoType.all (todo.todoType ≠ ·) &&
  (q.myDay ≠ some true || (todo.myDay && todo.myDayDate = some clock.today)) &&
  (q.inbox ≠ some true || (todo.status ≠ .done && !todo.myDay && todo.dueDate.isNone)) &&
  (q.overdue ≠ some true || (todo.dueDate.any (· < clock.now) && todo.status ≠ .done))

def TodoPriority.rank : TodoPriority → Nat
  | .high => 0 | .medium => 1 | .low => 2

/-- `ORDER BY`; rows that are level stay as they are -/
def orderBy (sortBy : Option String) (a b : TodoItem) : Bool :=
  match sortBy with
  | some "created_at" => b.createdAt ≤ a.createdAt
  | some "updated_at" => b.updatedAt ≤ a.updatedAt
  | some "priority" => a.priority.rank < b.priority.rank ||
      (a.priority = b.priority && a.sortOrder ≤ b.sortOrder)
  | some "due_date" =>
    match a.dueDate, b.dueDate with
    | some d, some e => d < e || (d = e && a.sortOrder ≤ b.sortOrder)
    | some _, none => true
    | none, some _ => false
    | none, none => a.sortOrder ≤ b.sortOrder
  | _ => a.sortOrder < b.sortOrder || (a.sortOrder = b.sortOrder && b.createdAt ≤ a.createdAt)

structure TodoQueryResult where
  items : List TodoItem
  total : Nat
  hasMore : Bool

def TodoQuery.limitOr (q : TodoQuery) : UInt32 := q.limit.getD 50
def TodoQuery.offsetOr (q : TodoQuery) : UInt32 := q.offset.getD 0

def sorted (q : TodoQuery) (rows : List TodoItem) : List TodoItem :=
  rows.mergeSort (orderBy q.sortBy)

def selected (clock : Clock) (rows : List TodoItem) (q : TodoQuery) : List TodoItem :=
  rows.filter fun todo => otherFilters clock q todo && q.tag.all (isMatched · todo.tags)

/-- `none` if the number of rows is no `u32` -/
def query (clock : Clock) (rows : List TodoItem) (q : TodoQuery) : Option TodoQueryResult :=
  let total := (selected clock rows q).length
  if total < 2 ^ 32 then
    some {
      items := ((sorted q (selected clock rows q)).drop q.offsetOr.toNat).take q.limitOr.toNat
      total
      hasMore := (q.offsetOr + q.limitOr).toNat < total }
  else none

/-- The items of the pages from an offset on.  `none` if there is no such page, or one is left
after `rounds`. -/
def walk (clock : Clock) (rows : List TodoItem) (q : TodoQuery) :
    Nat → UInt32 → Option (List TodoItem)
  | 0, _ => none
  | rounds + 1, offset => do
    let page ← query clock rows { q with offset := some offset }
    if !page.hasMore then some page.items
    else if offset.toNat + q.limitOr.toNat < 2 ^ 32 then
      let rest ← walk clock rows q rounds (offset + q.limitOr)
      some (page.items ++ rest)
    else none

def matching (clock : Clock) (rows : List TodoItem) (q : TodoQuery) (tag : String) :
    List TodoItem :=
  rows.filter fun todo => otherFilters clock q todo && tag ∈ todo.tags

def TodoQuery.withTag (q : TodoQuery) (tag : String) : TodoQuery := { q with tag := some tag }

/-- the page is one of the matching todos, and the pages from the first one on have each of them
once -/
def TagQueryRight (clock : Clock) (rows : List TodoItem) (q : TodoQuery) (tag : String) : Prop :=
  let found := matching clock rows q tag
  (∃ page, query clock rows (q.withTag tag) = some page ∧ page.total = found.length ∧
    page.items = ((sorted q found).drop q.offsetOr.toNat).take q.limitOr.toNat ∧
    (page.hasMore ↔ q.offsetOr.toNat + q.limitOr.toNat < found.length)) ∧
  ∃ rounds items, walk clock rows (q.withTag tag) rounds 0 = some items ∧ items.Perm found

/-- there is a stretch between two quotes of the stored text that the tag matches, read as a
pattern -/
def Quoted (tag : String) (tags : List String) : Prop :=
  ∃ a b c, encodeTags tags = a ++ '"' :: b ++ '"' :: c ∧ like tag.toList b

/-- the sum of the bounds fits, or wraps to a number that is past the end too -/
def FlagFits (offset limit : UInt32) (total : Nat) : Prop :=
  offset.toNat + limit.toNat < 2 ^ 32 ∨ total + 2 ^ 32 ≤ offset.toNat + limit.toNat

/-- some multiple of the limit that is an offset is past the end -/
def WalkFits (limit : UInt32) (total : Nat) : Prop :=
  ∃ k, total ≤ k * limit.toNat ∧ k * limit.toNat < 2 ^ 32

theorem eq_quote {c : Char} (h : c.toLower = '"') : c = '"' := by
  unfold Char.toLower at h
  split at h
  · next hupper =>
    have hval := congrArg (fun c : Char => c.val.toNat) h
    have hlow := UInt32.le_iff_toNat_le.mp hupper.1
    have hhigh := UInt32.le_iff_toNat_le.mp hupper.2
    simp only [UInt32.toNat_add] at hval hlow hhigh
    have hA : 'A'.val.toNat = 65 := rfl
    have hZ : 'Z'.val.toNat = 90 := rfl
    have hshift : ('a'.val - 'A'.val).toNat = 32 := rfl
    have hquote : '"'.val.toNat = 34 := rfl
    omega
  · exact h

theorem like_quote (text : List Char) : like ['"'] text ↔ text = ['"'] := by
  rw [like_cons (by decide)]
  constructor
  · rintro ⟨d, rest, rfl, hd, hrest⟩
    have hrest := (like_nil rest).mp hrest
    have hlower : '"' = d.toLower := by simpa using hd
    rw [eq_quote hlower.symm, hrest]
  · rintro rfl
    exact ⟨'"', [], rfl, .inr rfl, rfl⟩

theorem isMatched_iff (tag : String) (tags : List String) :
    isMatched tag tags ↔ Quoted tag tags := by
  have hquotes (b : List Char) : like (['"'] ++ tag.toList ++ ['"']) b ↔
      ∃ s, b = '"' :: s ++ ['"'] ∧ like tag.toList s := by
    simp only [like_append, like_quote]
    constructor
    · rintro ⟨_, _, rfl, ⟨_, s, rfl, rfl, hs⟩, rfl⟩
      exact ⟨s, rfl, hs⟩
    · rintro ⟨s, rfl, hs⟩
      exact ⟨_, _, rfl, ⟨_, s, rfl, rfl, hs⟩, rfl⟩
  refine (like_within (['"'] ++ tag.toList ++ ['"']) (encodeTags tags)).trans ?_
  simp only [hquotes]
  constructor
  · rintro ⟨a, _, c, htext, b, rfl, hb⟩
    exact ⟨a, b, c, by simpa using htext, hb⟩
  · rintro ⟨a, b, c, htext, hb⟩
    exact ⟨a, _, c, by simpa using htext, b, rfl, hb⟩

section
variable {clock : Clock} {rows : List TodoItem} {q : TodoQuery} {tag : String} {n : Nat}
  {offset : UInt32} {items : List TodoItem}

/-! ## the pages -/

theorem sorted_perm (q : TodoQuery) (rows : List TodoItem) : (sorted q rows).Perm rows :=
  List.mergeSort_perm _ _

def pageAt (clock : Clock) (rows : List TodoItem) (q : TodoQuery) (offset : UInt32) :
    List TodoItem :=
  ((sorted q (selected clock rows q)).drop offset.toNat).take q.limitOr.toNat

theorem walk_succ (n : Nat) (offset : UInt32) (h : (selected clock rows q).length < 2 ^ 32) :
    walk clock rows q (n + 1) offset =
      if (offset + q.limitOr).toNat < (selected clock rows q).length then
        if offset.toNat + q.limitOr.toNat < 2 ^ 32 then
          (walk clock rows q n (offset + q.limitOr)).map (pageAt clock rows q offset ++ ·)
        else none
      else some (pageAt clock rows q offset) := by
  have hpage : query clock rows { q with offset := some offset } =
      some ⟨pageAt clock rows q offset, (selected clock rows q).length,
        (offset + q.limitOr).toNat < (selected clock rows q).length⟩ := if_pos h
  rw [walk, hpage]
  by_cases hmore : (offset + q.limitOr).toNat < (selected clock rows q).length
  · simp only [bind_eq_bind, bind_some, hmore, decide_true, Bool.not_true,
      false_eq_true, if_false, if_true, map_eq_bind, Function.comp_def]
  · simp only [bind_eq_bind, bind_some, hmore, decide_false, Bool.not_false, if_true, if_false]

theorem total_lt (h : walk clock rows q n offset = some items) :
    (selected clock rows q).length < 2 ^ 32 := by
  cases n with
  | zero => cases h
  | succ n =>
    rw [walk] at h
    obtain ⟨page, hpage, -⟩ := bind_eq_some_iff.mp h
    exact (ite_none_right_eq_some.mp hpage).1

theorem toNat_add_le (a b : UInt32) : (a + b).toNat ≤ a.toNat + b.toNat := by
  rw [UInt32.toNat_add]
  exact Nat.mod_le _ _

/-- a walk that ends has read all there is from its offset on -/
theorem walk_eq (h : walk clock rows q n offset = some items) :
    items = (sorted q (selected clock rows q)).drop offset.toNat := by
  have htotal := total_lt h
  induction n generalizing offset items with
  | zero => cases h
  | succ n ih =>
    rw [walk_succ n offset htotal] at h
    split at h
    · obtain ⟨hfits, h⟩ := ite_none_right_eq_some.mp h
      obtain ⟨rest, hrest, rfl⟩ := map_eq_some_iff.mp h
      rw [ih hrest, UInt32.toNat_add, Nat.mod_eq_of_lt hfits, ← List.drop_drop]
      exact List.take_append_drop _ _
    next hlast =>
    cases h
    refine List.take_of_length_le ?_
    rw [List.length_drop, (sorted_perm _ _).length_eq]
    have := toNat_add_le offset q.limitOr
    omega

theorem walk_ends (h : (selected clock rows q).length < 2 ^ 32)
    (hoffset : offset.toNat < (selected clock rows q).length ∨ offset.toNat = 0) :
    (∃ n items, walk clock rows q n offset = some items) ↔
      ∃ k, (selected clock rows q).length ≤ offset.toNat + k * q.limitOr.toNat ∧
        offset.toNat + k * q.limitOr.toNat < 2 ^ 32 := by
  have hlimit := q.limitOr.toNat_lt
  have hsize := offset.toNat_lt
  constructor
  · rintro ⟨n, items, hwalk⟩
    induction n generalizing offset items with
    | zero => cases hwalk
    | succ n ih =>
      rw [walk_succ n offset h] at hwalk
      split at hwalk
      · next hmore =>
        obtain ⟨hfits, hwalk⟩ := ite_none_right_eq_some.mp hwalk
        obtain ⟨rest, hrest, -⟩ := map_eq_some_iff.mp hwalk
        obtain ⟨k, hk⟩ := ih (.inl hmore) (offset + q.limitOr).toNat_lt rest hrest
        rw [UInt32.toNat_add, Nat.mod_eq_of_lt hfits] at hk
        exact ⟨k + 1, by rw [Nat.succ_mul]; omega⟩
      · next hlast =>
        rw [UInt32.toNat_add] at hlast
        exact ⟨1, by rw [Nat.one_mul]; omega⟩
  rintro ⟨k, hle, hlt⟩
  induction k generalizing offset with
  | zero =>
    refine ⟨1, pageAt clock rows q offset, (walk_succ 0 offset h).trans (if_neg ?_)⟩
    rw [UInt32.toNat_add]
    omega
  | succ k ih =>
    rw [Nat.succ_mul] at hle hlt
    by_cases hmore : (offset + q.limitOr).toNat < (selected clock rows q).length
    · have hsum : (offset + q.limitOr).toNat = offset.toNat + q.limitOr.toNat := by
        rw [UInt32.toNat_add]
        omega
      obtain ⟨n, rest, hrest⟩ := ih (.inl hmore) (offset + q.limitOr).toNat_lt
        (by omega) (by omega)
      refine ⟨n + 1, pageAt clock rows q offset ++ rest, (walk_succ n offset h).trans ?_⟩
      rw [if_pos hmore, if_pos (by omega), hrest]
      rfl
    · exact ⟨1, _, (walk_succ 0 offset h).trans (if_neg hmore)⟩

theorem walk_start (h : (selected clock rows q).length < 2 ^ 32) :
    (∃ n items, walk clock rows q n 0 = some items) ↔
      WalkFits q.limitOr (selected clock rows q).length := by
  have hends : (∃ n items, walk clock rows q n 0 = some items) ↔ _ := walk_ends h (.inr rfl)
  simpa [WalkFits] using hends

theorem selected_eq (h : ∀ todo ∈ rows, otherFilters clock q todo →
    (Quoted tag todo.tags ↔ tag ∈ todo.tags)) :
    selected clock rows (q.withTag tag) = matching clock rows q tag := by
  refine List.filter_congr fun todo htodo => ?_
  show (otherFilters clock q todo && isMatched tag todo.tags) = _
  by_cases hothers : otherFilters clock q todo
  · rw [hothers, Bool.true_and, Bool.true_and, Bool.eq_iff_iff, isMatched_iff, decide_eq_true_iff]
    exact h todo htodo hothers
  · rw [not_eq_true] at hothers
    rw [hothers, Bool.false_and, Bool.false_and]

/-- the pages of a claim that holds are of the todos that the pattern finds -/
theorem quoted_of_right (h : TagQueryRight clock rows q tag) :
    ∀ todo ∈ rows, otherFilters clock q todo → (Quoted tag todo.tags ↔ tag ∈ todo.tags) := by
  intro todo htodo hothers
  obtain ⟨-, n, items, hwalk, hperm⟩ := h
  have hitems : items = sorted (q.withTag tag) (selected clock rows (q.withTag tag)) :=
    walk_eq hwalk
  rw [hitems] at hperm
  have hmem := ((sorted_perm _ _).symm.trans hperm).mem_iff (a := todo)
  have hselected : todo ∈ selected clock rows (q.withTag tag) ↔ isMatched tag todo.tags := by
    refine List.mem_filter.trans ((and_iff_right htodo).trans ?_)
    show (otherFilters clock q todo && isMatched tag todo.tags) = true ↔ _
    simp [hothers]
  rw [← isMatched_iff, ← hselected, hmem]
  simp [matching, htodo, hothers]

end

def workTodo : TodoItem where
  id := "t1"
  title := "report"
  description := ""
  status := .todo
  priority := .medium
  scope := .global
  scopeRef := none
  tags := ["Work"]
  dueDate := none
  myDay := false
  myDayDate := none
  reminderAt := none
  recurrence := none
  todoType := ""
  sortOrder := 1
  createdAt := "2026-01-01T00:00:00+00:00"
  updatedAt := "2026-01-01T00:00:00+00:00"

end CcPanes.Todos

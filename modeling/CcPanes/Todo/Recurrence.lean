import CcPanes.Todo.TodoService

/-!
# The schedule of a recurring todo

`create_next_recurrence` writes the due date of the next instance as a date, and reads the one of
the todo as an instant when it carries the reminder over.
-/

namespace CcPanes.Todos
open Option

/-- a printed date is read again, and is no instant; an instant begins with a date -/
structure Chrono.Lawful {Date : Type} (chrono : Chrono Date) : Prop where
  parse_format : ∀ date, chrono.parseDate (chrono.formatDate date) = some date
  not_instant : ∀ date, chrono.parseFromRfc3339 (chrono.formatDate date) = none
  begins : ∀ text t, chrono.parseFromRfc3339 text = some t →
    ∃ d date, dateStr text = some d ∧ chrono.parseDate d = some date

section
variable {Date : Type} (chrono : Chrono Date) (stamps : Nat → Stamp) (recurrence : String)

def nthSuccessor (old : TodoItem) : Nat → Option TodoItem
  | 0 => some old
  | n + 1 => do
    let todo ← nthSuccessor old n
    (← createNextRecurrence chrono (stamps n) todo recurrence).toOption

def dueInstant (due : String) : Option Int :=
  chrono.parseFromRfc3339 due <|> (chrono.parseDate due).map chrono.midnight

/-- the reminder is at an offset from the due date -/
def Reminds (todo : TodoItem) (offset : Int) : Prop :=
  ∃ due ∈ todo.dueDate, ∃ t ∈ dueInstant chrono due, ∃ reminder ∈ todo.reminderAt,
    chrono.parseFromRfc3339 reminder = some (t + offset) ∨
      reminder = chrono.toRfc3339 (t + offset)

def Timed (old : TodoItem) (offset : Int) : Prop :=
  ∃ due ∈ old.dueDate, ∃ t, chrono.parseFromRfc3339 due = some t ∧
    ∃ reminder ∈ old.reminderAt, chrono.parseFromRfc3339 reminder = some (t + offset)

structure KeepsSchedule (old : TodoItem) (n : Nat) : Prop where
  /-- there is no panic -/
  runs : ∀ stamp, createNextRecurrence chrono stamp old recurrence ≠ none
  /-- a due date that begins with a date is moved on -/
  due : ∀ d ∈ old.dueDate, ∀ text ∈ dateStr d, ∀ date ∈ chrono.parseDate text, ∀ stamp next,
    createNextRecurrence chrono stamp old recurrence = some (.ok next) →
      next.dueDate = some (chrono.formatDate (nextDate chrono recurrence date))
  /-- the `n`-th successor of a todo with two instants keeps the offset -/
  reminder : ∀ offset, Timed chrono old offset →
    ∃ todo ∈ nthSuccessor chrono stamps recurrence old n, Reminds chrono todo offset
end

section
variable {Date : Type} {chrono : Chrono Date} {stamps : Nat → Stamp} {recurrence : String}
  {old next todo : TodoItem} {n : Nat} {stamp : Stamp}

section
variable (h : createNextRecurrence chrono stamp old recurrence = some (.ok next))
include h

theorem created_eq :
    ∃ text, dueText old = some text ∧
      next = newTodo stamp (requestFor chrono old recurrence text) := by
  obtain ⟨text, htext, hcreate⟩ := map_eq_some_iff.mp h
  refine ⟨text, htext, ?_⟩
  unfold createTodo at hcreate
  split_ifs at hcreate
  exact (Except.ok.inj hcreate).symm

theorem created_due {d text : String} {date : Date} (hd : old.dueDate = some d)
    (htext : dateStr d = some text) (hdate : chrono.parseDate text = some date) :
    next.dueDate = some (chrono.formatDate (nextDate chrono recurrence date)) := by
  obtain ⟨text', htext', rfl⟩ := created_eq h
  obtain rfl : some text = text' := by simpa [dueText, hd, htext] using htext'
  simp [newTodo, requestFor, hdate]

theorem created_day :
    ∀ due ∈ next.dueDate, ∃ date, due = chrono.formatDate date := by
  obtain ⟨text, -, rfl⟩ := created_eq h
  intro due hdue
  obtain ⟨date, -, rfl⟩ := map_eq_some_iff.mp hdue
  exact ⟨_, rfl⟩

end

theorem nthSuccessor_succ (h : nthSuccessor chrono stamps recurrence old (n + 1) = some next) :
    ∃ todo, nthSuccessor chrono stamps recurrence old n = some todo ∧
      createNextRecurrence chrono (stamps n) todo recurrence = some (.ok next) := by
  obtain ⟨todo, htodo, h⟩ := bind_eq_some_iff.mp h
  obtain ⟨result, hresult, h⟩ := bind_eq_some_iff.mp h
  cases result with
  | error => cases h
  | ok =>
    cases h
    exact ⟨todo, htodo, hresult⟩

theorem no_reminder (hc : chrono.Lawful)
    (h : nthSuccessor chrono stamps recurrence old (n + 2) = some next) :
    next.reminderAt = none := by
  obtain ⟨todo, htodo, hnext⟩ := nthSuccessor_succ h
  obtain ⟨first, -, hfirst⟩ := nthSuccessor_succ htodo
  obtain ⟨text, -, rfl⟩ := created_eq hnext
  show nextReminder chrono todo _ = none
  unfold nextReminder
  cases hdue : todo.dueDate with
  | none => rfl
  | some due =>
    obtain ⟨date, rfl⟩ := created_day hfirst due hdue
    cases todo.reminderAt with
    | none => rfl
    | some => simp [hc.not_instant date]

theorem creates_iff :
    (∀ stamp, createNextRecurrence chrono stamp old recurrence ≠ none) ↔ (dueText old).isSome := by
  rw [isSome_iff_ne_none]
  unfold createNextRecurrence
  exact ⟨fun h hnone => h ⟨"", "", 0⟩ (by rw [hnone]; rfl), fun h stamp => by simpa using h⟩

theorem reminds_first (hc : chrono.Lawful) {offset : Int} (ht : Timed chrono old offset)
    (h : createNextRecurrence chrono stamp old recurrence = some (.ok next)) :
    Reminds chrono next offset := by
  obtain ⟨due, hdue, t, hparse, reminder, hreminder, hat⟩ := ht
  obtain ⟨d, date, hd, hdate⟩ := hc.begins due t hparse
  obtain ⟨text, htext, rfl⟩ := created_eq h
  obtain rfl : some d = text := by simpa [dueText, mem_def.mp hdue, hd] using htext
  have hnext := hc.parse_format (nextDate chrono recurrence date)
  have hday := hc.not_instant (nextDate chrono recurrence date)
  refine ⟨chrono.formatDate (nextDate chrono recurrence date), by simp [newTodo, requestFor, hdate],
    chrono.midnight (nextDate chrono recurrence date), by simp [dueInstant, hnext, hday], _, ?_,
    .inr rfl⟩
  have hoffset : t + offset - t = offset := by omega
  simp [newTodo, requestFor, nextReminder, mem_def.mp hdue, mem_def.mp hreminder,
    hparse, hat, hdate, hnext, hoffset]

end

/-! ## two days -/

/-- the date functions on the first two days of 2024 -/
def twoDays : Chrono Bool where
  parseDate text :=
    if text = "2024-01-01" then some false else if text = "2024-01-02" then some true else none
  formatDate date := if date then "2024-01-02" else "2024-01-01"
  addDays _ _ := true
  checkedAddMonth _ := none
  midnight date := if date then 1704153600000000000 else 1704067200000000000
  parseFromRfc3339 text :=
    if text = "2024-01-01T10:00:00+00:00" then some 1704103200000000000
    else if text = "2024-01-01T09:00:00+00:00" then some 1704099600000000000
    else none
  toRfc3339 t := if t = 1704150000000000000 then "2024-01-01T23:00:00+00:00" else ""

theorem twoDays_lawful : twoDays.Lawful where
  parse_format := by decide
  not_instant := by decide
  begins text t h := by
    simp only [twoDays] at h
    split_ifs at h with h1 h2
    · subst h1
      exact ⟨"2024-01-01", false, by decide, by decide⟩
    · subst h2
      exact ⟨"2024-01-01", false, by decide, by decide⟩

/-- due at ten, with a reminder an hour before -/
def timedTodo : TodoItem :=
  { dailyTodo with
    dueDate := some "2024-01-01T10:00:00+00:00"
    reminderAt := some "2024-01-01T09:00:00+00:00" }

theorem timedTodo_timed : Timed twoDays timedTodo (-3600000000000) :=
  ⟨_, rfl, 1704103200000000000, by decide, _, rfl, by decide⟩

end CcPanes.Todos

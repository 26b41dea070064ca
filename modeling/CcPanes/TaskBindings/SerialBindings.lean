import CcPanes.TaskBindings.ServedAlone
import Mathlib.Data.List.Permutation

/-!
# Calls that change task bindings at the same time

Four of the calls hold `update_lock`; the others do not.
-/

namespace CcPanes.TaskBindings

open SerialCalls

abbrev ServiceWorld (ι : Type) :=
  SerialCalls.World Found (fun _ : Change => Bool) AppError Response Table ι

abbrev ServicePlace := Place Found (fun _ : Change => Bool) AppError Response

def terminal (status : TaskBindingStatus) : Bool := status = .completed ∨ status = .failed

section
variable {ι : Type} [DecidableEq ι] (serde : Serde) (requests : ι → Request)

def calls (i : ι) : ServiceCall := (requests i).call serde

def interleaved (t₀ : Table) (schedule : List ι) : ServiceWorld ι :=
  Run.run (step repository (calls serde requests)) (begin t₀) schedule

def result : ServicePlace → Option (Except AppError Response)
  | .ended _ r => some r
  | _ => none

/-- what is asked of a call that ends at `p`, between the rows before it and after it -/
def Served (p : ServicePlace) (t t' : Table) : Request → Prop
  | .appendMetadataArrayItem id key item maxItems _ =>
    ∀ b, trim key ≠ "" → 0 < maxItems → findById t id = some b →
      ∃ b', findById t' id = some b' ∧
        metadataItems b' key = appendedItems (metadataItems b key) item maxItems
  | .reconcilePlanCollaboration _ _ _ _ =>
    ∀ id b, findById t id = some b → terminal b.status →
      ∃ b', findById t' id = some b' ∧ b'.status = b.status
  | .registerPlanLeader req _ _ _ =>
    leadersOf (planOf req) (projectOf req) t' ≤ max 1 (leadersOf (planOf req) (projectOf req) t) ∧
      ∀ b, cleanOptional (some (planOf req)) = some (planOf req) → result p = some (.ok b) →
        leadersOf (planOf req) (projectOf req) t' =
          max 1 (leadersOf (planOf req) (projectOf req) t)
  | .updateReturningPreviousStatus id _ _ =>
    ∀ old b, result p = some (.ok (.previous old b)) → old = (findById t id).map (·.status)
  | _ => True

/-- The rows are those that the calls leave one after the other, in some order, and each call is
served between the rows before it and after it. -/
def Serialisable (t₀ : Table) (w : ServiceWorld ι) : Prop :=
  ∃ order : List ι, order.Nodup ∧ (∀ i, i ∈ order) ∧
    w.table = serial repository (calls serde requests) t₀ order ∧
    ∀ before i after, order = before ++ i :: after →
      Served (w.place i) (serial repository (calls serde requests) t₀ before)
        (serial repository (calls serde requests) t₀ (before ++ [i])) (requests i)

def Reports (p : ServicePlace) (old : TaskBindingStatus) : Prop :=
  ∃ answer r b, p = .ended (.ok answer) r ∧ answer.Reaches (.previous (some old) b)

def Ends (id : String) (r : Request) : Prop :=
  ∃ req req' now status, r = .updateReturningPreviousStatus id req now ∧
    checkedUpdate req = .ok req' ∧ req.status = some status ∧ terminal status

/-- When all calls update one binding to a terminal status, exactly one of them reports that it was
not in a terminal status before. -/
def ReportedOnce (t₀ : Table) (w : ServiceWorld ι) : Prop :=
  ∀ id b, findById t₀ id = some b → ¬terminal b.status → Nonempty ι → (∀ i, Ends id (requests i)) →
    ∃ i old, Reports (w.place i) old ∧ ¬terminal old ∧
      ∀ j old', Reports (w.place j) old' → ¬terminal old' → j = i

end

section
variable {serde : Serde}

theorem served_of_serve {p : ServicePlace} {r : Request} {t : Table}
    {d : Except AppError (Answer Response)} {res : Except AppError Response} (hp : p = .ended d res)
    (hd : d = (serve repository (r.call serde).body t).1) (hanswered : p.Answered) :
    Served p t (serve repository (r.call serde).body t).2 r := by
  subst hp
  cases r with
  | appendMetadataArrayItem =>
    intro b hkey hmax hb
    exact serve_append hkey hmax hb
  | reconcilePlanCollaboration key live verbose clock =>
    intro id b hb hterminal
    apply serve_reconcile key live verbose clock hb
    intro hrunning
    rw [hrunning] at hterminal
    cases hterminal
  | registerPlanLeader req id created updated =>
    refine ⟨leadersOf_register_le req id created updated t, ?_⟩
    intro b hclean hb
    obtain ⟨answer, hanswer, -⟩ := hanswered b (Option.some.inj hb)
    exact leadersOf_register req id created updated t hclean (hd.symm.trans hanswer)
  | updateReturningPreviousStatus =>
    intro old b hb
    obtain ⟨answer, hanswer, hreaches⟩ := hanswered _ (Option.some.inj hb)
    obtain ⟨b', hb'⟩ := returning_reports (hd.symm.trans hanswer) hreaches
    cases hb'
    rfl
  | _ => trivial

variable {ι : Type} {requests : ι → Request} {t₀ : Table} {id : String} {b : TaskBinding}

theorem serial_ends (serde : Serde) (hends : ∀ i, Ends id (requests i)) (hb : findById t₀ id = some b)
    (order : List ι) :
    ∃ b', findById (serial repository (calls serde requests) t₀ order) id = some b' ∧
      (order = [] ∧ b' = b ∨ terminal b'.status) := by
  induction order using List.reverseRecOn with
  | nil => exact ⟨b, hb, .inl ⟨rfl, rfl⟩⟩
  | append_singleton before i ih =>
    obtain ⟨c, hc, -⟩ := ih
    obtain ⟨req, req', now, status, hreq, hcheck, hstatus, hterminal⟩ := hends i
    obtain ⟨⟨b', hb', hset⟩, -⟩ := serve_returning hcheck hstatus hc now
    have hcall : calls serde requests i = updateReturningPreviousStatus id req now := by
      rw [calls, hreq]
      rfl
    refine ⟨b', ?_, .inr (by rw [hset]; exact hterminal)⟩
    rw [serial_snoc, hcall]
    exact hb'

variable [DecidableEq ι]

/-- Calls that do not disturb each other, and have all ended, leave the rows of a serial order, and
of updates to a terminal status exactly one reports that the binding was not in one. -/
theorem serialisable_of_undisturbed (serde : Serde) (requests : ι → Request) (t₀ : Table)
    (schedule : List ι)
    (hok : Run.StepsOk (step repository (calls serde requests))
      (Undisturbed repository (calls serde requests)) (begin t₀) schedule)
    (hended : ∀ i, ((interleaved serde requests t₀ schedule).place i).isEnded) :
    Serialisable serde requests t₀ (interleaved serde requests t₀ schedule) ∧
      ReportedOnce requests t₀ (interleaved serde requests t₀ schedule) := by
  obtain ⟨order, h⟩ := run_serialised repository (calls serde requests) t₀ schedule hok
  have hplace : ∀ i, ∃ d r, (interleaved serde requests t₀ schedule).place i = .ended d r := by
    intro i
    have hi := hended i
    cases hp : (interleaved serde requests t₀ schedule).place i with
    | ended d r => exact ⟨d, r, rfl⟩
    | _ =>
      rw [hp] at hi
      cases hi
  have hall : ∀ i, i ∈ order := by
    intro i
    obtain ⟨d, r, hp⟩ := hplace i
    rw [h.mem]
    show ((interleaved serde requests t₀ schedule).place i).decided = true
    rw [hp]
    rfl
  have hdecision : ∀ before i after, order = before ++ i :: after → ∀ d r,
      (interleaved serde requests t₀ schedule).place i = .ended d r →
      d = (serve repository (calls serde requests i).body
        (serial repository (calls serde requests) t₀ before)).1 := by
    intro before i after horder d r hp
    have hd := h.decisions before i after horder
    rw [interleaved] at hp
    rw [hp] at hd
    exact Option.some.inj hd
  refine ⟨⟨order, h.nodup, hall, ?_, ?_⟩, ?_⟩
  · apply h.table
    intro i
    obtain ⟨d, r, hp⟩ := hplace i
    rw [interleaved] at hp
    rw [hp]
    rfl
  · intro before i after horder
    obtain ⟨d, r, hp⟩ := hplace i
    rw [serial_snoc]
    exact served_of_serve hp (hdecision before i after horder d r hp)
      (run_answered repository (calls serde requests) t₀ schedule i)
  intro id b hb hopen hne hends
  have hcall : ∀ i, ∃ req now, calls serde requests i =
      updateReturningPreviousStatus id req now := by
    intro i
    obtain ⟨req, req', now, status, hreq, -⟩ := hends i
    exact ⟨req, now, by rw [calls, hreq]; rfl⟩
  cases horder : order with
  | nil =>
    obtain ⟨i⟩ := hne
    have hi := hall i
    rw [horder] at hi
    cases hi
  | cons i after =>
    obtain ⟨d, r, hp⟩ := hplace i
    have hd := hdecision [] i after horder d r hp
    obtain ⟨req, req', now, status, hreq, hcheck, hstatus, -⟩ := hends i
    obtain ⟨-, answer, b', hanswer, hreaches⟩ := serve_returning hcheck hstatus hb now
    refine ⟨i, b.status, ⟨answer, r, b', ?_, hreaches⟩, hopen, ?_⟩
    · rw [hp, hd, ← hanswer, calls, hreq]
      rfl
    rintro j old' ⟨answer', r', c, hpj, hreach⟩ hopen'
    obtain ⟨before, rest, hsplit⟩ := List.append_of_mem (hall j)
    have hdj := hdecision before j rest hsplit _ _ hpj
    obtain ⟨req', now', hcallj⟩ := hcall j
    rw [hcallj] at hdj
    obtain ⟨c', hc'⟩ := returning_reports hdj.symm hreach
    obtain ⟨b'', hb'', hfirst | hterminal⟩ := serial_ends serde hends hb before
    · rw [hfirst.1, List.nil_append, horder] at hsplit
      exact (List.cons.inj hsplit).1.symm
    · rw [hb''] at hc'
      cases hc'
      exact absurd hterminal hopen'

end

/-! ## a plan is reconciled while a terminal exits -/

def planRows : Table where
  rows :=
    [{ id := "leader", title := "Plan", role := .leader, projectPath := "/repo", cliTool := "claude"
       status := .running, createdAt := 0, updatedAt := 0 },
     { id := "worker", title := "Worker", role := .worker, parentId := some "leader"
       sessionId := some "pty", projectPath := "/repo", cliTool := "codex", status := .running
       createdAt := 1, updatedAt := 1 }]
  key := by decide

def reconcileAndExit : Fin 2 → Request
  | 0 => .reconcilePlanCollaboration { leaderId := some "leader" } [] false fun _ => 3
  | 1 => .recordTerminalExit "pty" 0 2

def plainSerde : Serde := ⟨fun _ => 0, fun field _ => field⟩

/-- the exit comes when the plan is reconciled, before the answer is read -/
def exitAfter : List (Fin 2) := [0, 0, 0, 0, 1, 1, 1, 0, 1, 0]

theorem exitAfter_serialisable :
    Serialisable plainSerde reconcileAndExit planRows
        (interleaved plainSerde reconcileAndExit planRows exitAfter) ∧
      ReportedOnce reconcileAndExit planRows
        (interleaved plainSerde reconcileAndExit planRows exitAfter) :=
  serialisable_of_undisturbed plainSerde reconcileAndExit planRows exitAfter (by decide +kernel)
    (by decide +kernel)

def exitBetween : List (Fin 2) := [0, 0, 0, 1, 1, 1, 1, 0, 0, 0]

def workerStatus (t : Table) : Option TaskBindingStatus := (findById t "worker").map (·.status)

/-- The worker looks alive: one after the other, in either order, the calls leave it failed. -/
theorem bindings_disturbed :
    (∀ i, ((interleaved plainSerde reconcileAndExit planRows exitBetween).place i).isEnded) ∧
      ¬Serialisable plainSerde reconcileAndExit planRows
        (interleaved plainSerde reconcileAndExit planRows exitBetween) := by
  refine ⟨by decide +kernel, ?_⟩
  rintro ⟨order, hnodup, hall, htable, -⟩
  have hwaiting : workerStatus (interleaved plainSerde reconcileAndExit planRows exitBetween).table =
      some .waiting := by decide +kernel
  have hboth : ∀ i : Fin 2, i ∈ [0, 1] := by decide
  have hperm : order.Perm [0, 1] :=
    (List.perm_ext_iff_of_nodup hnodup (by decide)).mpr fun i => ⟨fun _ => hboth i, fun _ => hall i⟩
  have hfailed : workerStatus (serial repository (calls plainSerde reconcileAndExit) planRows order) =
      some .failed := by
    obtain rfl | rfl := List.perm_pair.mp hperm <;> decide +kernel
  rw [htable, hfailed] at hwaiting
  cases hwaiting

end CcPanes.TaskBindings

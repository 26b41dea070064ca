import CcPanes.Foundation.Run
import Mathlib.Logic.Function.Basic
import Mathlib.Data.Fintype.Basic

/-!
# Calls on a shared table, and their serial order

A call looks at a shared table and changes it, one atomic access at a time; some calls hold a lock
while they run.  Calls of many threads interleave.
-/

namespace SerialCalls

variable {Q U : Type} {A : Q → Type} {B : U → Type} {ε α β γ S ι : Type}

/-- a table: queries `q : Q` are answered by `A q`, changes `u : U` by `B u` -/
structure Store (A : Q → Type) (B : U → Type) (S : Type) where
  look : S → (q : Q) → A q
  change : S → (u : U) → B u × S

/-- reads only -/
inductive Reads (A : Q → Type) (ε α : Type)
  | done (a : α)
  | fail (e : ε)
  | read (q : Q) (k : A q → Reads A ε α)

/-- reads and writes -/
inductive Body (A : Q → Type) (B : U → Type) (ε β : Type)
  | done (b : β)
  | fail (e : ε)
  | read (q : Q) (k : A q → Body A B ε β)
  | write (u : U) (k : B u → Body A B ε β)

def Reads.bind : Reads A ε α → (α → Reads A ε γ) → Reads A ε γ
  | .done a, f => f a
  | .fail e, _ => .fail e
  | .read q k, f => .read q fun r => bind (k r) f

instance : Monad (Reads A ε) where
  pure := .done
  bind := Reads.bind

def Body.bind : Body A B ε β → (β → Body A B ε γ) → Body A B ε γ
  | .done b, f => f b
  | .fail e, _ => .fail e
  | .read q k, f => .read q fun r => bind (k r) f
  | .write u k, f => .write u fun r => bind (k r) f

instance : Monad (Body A B ε) where
  pure := .done
  bind := Body.bind

/-! ## one call alone -/

/-- the outcome of a body that nothing interrupts, and the table that it leaves -/
def serve (store : Store A B S) : Body A B ε β → S → Except ε β × S
  | .done b, s => (.ok b, s)
  | .fail e, s => (.error e, s)
  | .read q k, s => serve store (k (store.look s q)) s
  | .write u k, s => serve store (k (store.change s u).1) (store.change s u).2

/-- the reads can end with this answer -/
inductive Reads.Reaches : Reads A ε α → α → Prop
  | done (a : α) : Reaches (.done a) a
  | read {q : Q} {k : A q → Reads A ε α} {a : α} (r : A q) (h : Reaches (k r) a) :
      Reaches (.read q k) a

theorem Reads.reaches_bind {p : Reads A ε α} {f : α → Reads A ε γ} {c : γ} :
    (p >>= f).Reaches c ↔ ∃ a, p.Reaches a ∧ (f a).Reaches c := by
  induction p with
  | done a =>
    refine ⟨fun h => ⟨a, .done a, h⟩, ?_⟩
    rintro ⟨a', ha, hc⟩
    cases ha
    exact hc
  | fail =>
    refine ⟨nofun, ?_⟩
    rintro ⟨a', ha, -⟩
    cases ha
  | read q k ih =>
    constructor
    · intro h
      cases h with
      | read r h =>
        obtain ⟨a, ha, hc⟩ := (ih r).mp h
        exact ⟨a, .read r ha, hc⟩
    · rintro ⟨a, ha, hc⟩
      cases ha with
      | read r ha => exact .read r ((ih r).mpr ⟨a, ha, hc⟩)

theorem Reads.reaches_pure {a c : α} : (pure a : Reads A ε α).Reaches c ↔ c = a := by
  constructor
  · intro h
    cases h
    rfl
  · intro h
    rw [h]
    exact .done a

section
variable (store : Store A B S)

@[simp] theorem serve_pure (b : β) (s : S) :
    serve store (pure b : Body A B ε β) s = (.ok b, s) := rfl

theorem serve_bind (p : Body A B ε β) (f : β → Body A B ε γ) (s : S) :
    serve store (p >>= f) s =
      match serve store p s with
      | (.ok b, s') => serve store (f b) s'
      | (.error e, s') => (.error e, s') := by
  induction p generalizing s with
  | done => rfl
  | fail => rfl
  | read q k ih => exact ih (store.look s q) s
  | write u k ih => exact ih (store.change s u).1 (store.change s u).2

variable {store} {p : Body A B ε β} {s s' : S}

theorem serve_bind_ok {b : β} (h : serve store p s = (.ok b, s')) (f : β → Body A B ε γ) :
    serve store (p >>= f) s = serve store (f b) s' := by
  rw [serve_bind, h]

theorem serve_bind_error {e : ε} (h : serve store p s = (.error e, s')) (f : β → Body A B ε γ) :
    serve store (p >>= f) s = (.error e, s') := by
  rw [serve_bind, h]

theorem serve_bind_pure (p : Body A B ε β) (f : β → γ) (s : S) :
    (serve store (p >>= fun b => pure (f b)) s).2 = (serve store p s).2 := by
  rw [serve_bind]
  split
  · next h => rw [h, serve_pure]
  · next h => rw [h]

end

/-- a call: does it hold the lock while it runs, and its accesses -/
structure Call (A : Q → Type) (B : U → Type) (ε α : Type) where
  locked : Bool
  body : Body A B ε (Reads A ε α)

def serial (store : Store A B S) (calls : ι → Call A B ε α) (s : S) (order : List ι) : S :=
  order.foldl (fun s i => (serve store (calls i).body s).2) s

theorem serial_snoc (store : Store A B S) (calls : ι → Call A B ε α) (s : S) (order : List ι)
    (i : ι) : serial store calls s (order ++ [i]) =
      (serve store (calls i).body (serial store calls s order)).2 := by
  rw [serial, List.foldl_append]
  rfl

/-! ## calls that interleave -/

/-- Where a call stands: it has not begun; it has made these reads, and writes perhaps, and has this
much of its body to do; its body is done, and these reads remain; it has ended. -/
inductive Place (A : Q → Type) (B : U → Type) (ε α : Type)
  | waiting
  | body (reads : List (Σ q, A q)) (wrote : Bool) (rest : Body A B ε (Reads A ε α))
  | answer (decision rest : Reads A ε α)
  | ended (decision : Except ε (Reads A ε α)) (result : Except ε α)

namespace Place

/-- the body is done: the reads for the answer follow -/
def answering (decision : Reads A ε α) : Reads A ε α → Place A B ε α
  | .done a => .ended (.ok decision) (.ok a)
  | .fail e => .ended (.ok decision) (.error e)
  | .read q k => .answer decision (.read q k)

def going (reads : List (Σ q, A q)) (wrote : Bool) :
    Body A B ε (Reads A ε α) → Place A B ε α
  | .done t => answering t t
  | .fail e => .ended (.error e) (.error e)
  | .read q k => .body reads wrote (.read q k)
  | .write u k => .body reads wrote (.write u k)

def midway : Place A B ε α → Bool
  | .body _ wrote _ => wrote
  | _ => false

/-- it has made its first write, or come to its end without one -/
def decided : Place A B ε α → Bool
  | .waiting => false
  | .body _ wrote _ => wrote
  | _ => true

def underway : Place A B ε α → Bool
  | .body _ _ _ => true
  | .answer _ _ => true
  | _ => false

def isEnded : Place A B ε α → Bool
  | .ended _ _ => true
  | _ => false

/-- what it has read, when its first write is still to come -/
def pending : Place A B ε α → List (Σ q, A q)
  | .body reads false _ => reads
  | _ => []

/-- the decision that its body has come to, or comes to when nothing interrupts it -/
def decision (store : Store A B S) (s : S) : Place A B ε α → Option (Except ε (Reads A ε α))
  | .waiting => none
  | .body _ false _ => none
  | .body _ true rest => some (serve store rest s).1
  | .answer t _ => some (.ok t)
  | .ended t _ => some t

/-- the table when the writes that it has begun are made -/
def completion (store : Store A B S) (s : S) : Place A B ε α → S
  | .body _ true rest => (serve store rest s).2
  | _ => s

end Place

structure World (A : Q → Type) (B : U → Type) (ε α S ι : Type) where
  table : S
  lock : Option ι
  place : ι → Place A B ε α

def begin (s : S) : World A B ε α S ι where
  table := s
  lock := none
  place _ := .waiting

section
variable [DecidableEq ι]

/-- a call goes to a place; the lock is released when it ends -/
def put (w : World A B ε α S ι) (i : ι) (s : S) (lock : Option ι) (p : Place A B ε α) :
    World A B ε α S ι where
  table := s
  lock := if p.isEnded ∧ lock = some i then none else lock
  place := Function.update w.place i p

def step (store : Store A B S) (calls : ι → Call A B ε α) (w : World A B ε α S ι) (i : ι) :
    World A B ε α S ι :=
  match w.place i with
  | .waiting =>
    if (calls i).locked then
      match w.lock with
      | none => put w i w.table (some i) (.going [] false (calls i).body)
      | some _ => w
    else put w i w.table w.lock (.going [] false (calls i).body)
  | .body reads wrote (.read q k) =>
    put w i w.table w.lock
      (.going (reads ++ [⟨q, store.look w.table q⟩]) wrote (k (store.look w.table q)))
  | .body reads _ (.write u k) =>
    put w i (store.change w.table u).2 w.lock (.going reads true (k (store.change w.table u).1))
  | .answer t (.read q k) =>
    put w i w.table w.lock (.answering t (k (store.look w.table q)))
  | _ => w

def Undisturbed [∀ q, DecidableEq (A q)] (store : Store A B S) (calls : ι → Call A B ε α)
    (w : World A B ε α S ι) (i : ι) : Prop :=
  ∀ j, j ≠ i → ¬((calls i).locked ∧ (calls j).locked) →
    (¬(w.place i).decided → ((step store calls w i).place i).decided → ¬(w.place j).midway) ∧
    ∀ r ∈ (w.place j).pending, store.look (step store calls w i).table r.1 = r.2

instance [∀ q, DecidableEq (A q)] [Fintype ι] (store : Store A B S) (calls : ι → Call A B ε α)
    (w : World A B ε α S ι) (i : ι) : Decidable (Undisturbed store calls w i) := by
  unfold Undisturbed
  infer_instance

end

/-! ## places -/

namespace Place

variable {store : Store A B S} {s s' : S} {p : Place A B ε α}

theorem underway_of_midway (h : p.midway) : p.underway := by
  cases p with
  | body => rfl
  | _ => exact Bool.noConfusion h

theorem decided_of_midway (h : p.midway) : p.decided := by
  cases p with
  | body => exact h
  | _ => exact Bool.noConfusion h

theorem underway_of_pending {r : Σ q, A q} (h : r ∈ p.pending) : p.underway := by
  cases p with
  | body => rfl
  | _ => cases h

theorem decision_of_not_midway (h : p.midway = false) (s s' : S) :
    p.decision store s = p.decision store s' := by
  cases p with
  | body reads wrote =>
    have hw : wrote = false := h
    rw [hw]
    rfl
  | _ => rfl

theorem answering_decided (t r : Reads A ε α) :
    (answering t r : Place A B ε α).decided = true := by
  cases r <;> rfl

theorem answering_midway (t r : Reads A ε α) :
    (answering t r : Place A B ε α).midway = false := by
  cases r <;> rfl

theorem answering_decision (t r : Reads A ε α) :
    (answering t r : Place A B ε α).decision store s = some (.ok t) := by
  cases r <;> rfl

theorem answering_completion (t r : Reads A ε α) :
    (answering t r : Place A B ε α).completion store s = s := by
  cases r <;> rfl

theorem answering_pending (t r : Reads A ε α) :
    (answering t r : Place A B ε α).pending = [] := by
  cases r <;> rfl

theorem going_wrote (store : Store A B S) (s : S) (reads : List (Σ q, A q))
    (rest : Body A B ε (Reads A ε α)) : (going reads true rest).decided = true ∧
    (going reads true rest).pending = [] ∧
    (going reads true rest).decision store s = some (serve store rest s).1 ∧
    (going reads true rest).completion store s = (serve store rest s).2 := by
  cases rest with
  | done t => exact ⟨answering_decided t t, answering_pending t t, answering_decision t t,
      answering_completion t t⟩
  | _ => exact ⟨rfl, rfl, rfl, rfl⟩

theorem going_reading (store : Store A B S) (s : S) (reads : List (Σ q, A q))
    (rest : Body A B ε (Reads A ε α)) : going reads false rest = .body reads false rest ∨
    (going reads false rest).decided = true ∧ (going reads false rest).pending = [] ∧
      (going reads false rest).midway = false ∧
      (going reads false rest).decision store s = some (serve store rest s).1 ∧
      (serve store rest s).2 = s := by
  cases rest with
  | done t => exact .inr ⟨answering_decided t t, answering_pending t t, answering_midway t t,
      answering_decision t t, rfl⟩
  | fail => exact .inr ⟨rfl, rfl, rfl, rfl, rfl⟩
  | read => exact .inl rfl
  | write => exact .inl rfl

theorem completion_of_not_midway (h : p.midway = false) : p.completion store s = s := by
  cases p with
  | body reads wrote =>
    have hw : wrote = false := h
    rw [hw]
    rfl
  | _ => rfl

end Place

section
variable [DecidableEq ι] {w : World A B ε α S ι} {i : ι} {s : S} {lock : Option ι}
  {p : Place A B ε α}

theorem put_self : (put w i s lock p).place i = p := Function.update_self ..

theorem put_other {j : ι} (h : j ≠ i) : (put w i s lock p).place j = w.place j :=
  Function.update_of_ne h ..

end

def Place.Answered : Place A B ε α → Prop
  | .answer t rest => ∀ a, rest.Reaches a → t.Reaches a
  | .ended d r => ∀ a, r = .ok a → ∃ t, d = .ok t ∧ t.Reaches a
  | _ => True

theorem Place.answering_answered {t rest : Reads A ε α}
    (h : ∀ a, rest.Reaches a → t.Reaches a) :
    (answering t rest : Place A B ε α).Answered := by
  cases rest with
  | done a =>
    intro a' ha
    cases ha
    exact ⟨t, rfl, h a (.done a)⟩
  | fail =>
    intro a' ha
    cases ha
  | read => exact h

theorem Place.going_answered (reads : List (Σ q, A q)) (wrote : Bool)
    (rest : Body A B ε (Reads A ε α)) : (going reads wrote rest).Answered := by
  cases rest with
  | done => exact answering_answered fun a h => h
  | fail =>
    intro a ha
    cases ha
  | read => trivial
  | write => trivial

theorem run_answered [DecidableEq ι] (store : Store A B S) (calls : ι → Call A B ε α) (s₀ : S)
    (schedule : List ι) (i : ι) :
    ((Run.run (step store calls) (begin s₀) schedule).place i).Answered := by
  have hput : ∀ (w : World A B ε α S ι) (j : ι) (s : S) (lock : Option ι) (p : Place A B ε α),
      (∀ i, (w.place i).Answered) → p.Answered → ∀ i, ((put w j s lock p).place i).Answered := by
    intro w j s lock p hw hp i
    by_cases hij : i = j
    · rw [hij, put_self]
      exact hp
    · rw [put_other hij]
      exact hw i
  refine Run.run_inv (I := fun w : World A B ε α S ι => ∀ i, (w.place i).Answered) ?_
    (show ∀ i, ((begin s₀ : World A B ε α S ι).place i).Answered from fun _ => trivial) schedule i
  intro w j hw
  have hj := hw j
  unfold step
  split
  · split
    · split
      · exact hput w j _ _ _ hw (Place.going_answered _ _ _)
      · exact hw
    · exact hput w j _ _ _ hw (Place.going_answered _ _ _)
  · exact hput w j _ _ _ hw (Place.going_answered _ _ _)
  · exact hput w j _ _ _ hw (Place.going_answered _ _ _)
  · next t q k hplace =>
    rw [hplace] at hj
    refine hput w j _ _ _ hw (Place.answering_answered fun a ha => ?_)
    exact hj a (.read _ ha)
  · exact hw

end SerialCalls

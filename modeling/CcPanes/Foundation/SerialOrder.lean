import CcPanes.Foundation.SerialCalls
import Mathlib.Data.List.Nodup

/-!
# The serial order of calls that interleave
-/

namespace SerialCalls
open Bool List

variable {Q U : Type} {A : Q → Type} {B : U → Type} {ε α β γ S ι : Type}

/-! ## the serial order -/

/-- A call that has made these reads and nothing else: when they would be answered so, its whole
body does what the rest of it does. -/
def Follows (store : Store A B S) (body : Body A B ε (Reads A ε α)) (reads : List (Σ q, A q))
    (rest : Body A B ε (Reads A ε α)) : Prop :=
  ∀ s, (∀ r ∈ reads, store.look s r.1 = r.2) → serve store body s = serve store rest s

/-- The calls that have decided are served one after the other, in this order: the table is the one
that they leave when the writes under way are made, and each has decided as it does there. -/
structure Serialised (store : Store A B S) (calls : ι → Call A B ε α) (s₀ : S) (order : List ι)
    (w : World A B ε α S ι) : Prop where
  nodup : order.Nodup
  mem : ∀ i, i ∈ order ↔ (w.place i).decided = true
  decisions : ∀ before i after, order = before ++ i :: after →
    (w.place i).decision store w.table =
      some (serve store (calls i).body (serial store calls s₀ before)).1
  table : (∀ i, (w.place i).midway = false) → w.table = serial store calls s₀ order
  completed : ∀ i, (w.place i).midway →
    (w.place i).completion store w.table = serial store calls s₀ order
  alone : ∀ i j, (w.place i).midway → (w.place j).midway → i = j
  held : ∀ i, (calls i).locked → (w.place i).underway → w.lock = some i
  valid : ∀ i, ∀ r ∈ (w.place i).pending, store.look w.table r.1 = r.2
  follows : ∀ i reads rest, w.place i = .body reads false rest →
    Follows store (calls i).body reads rest

theorem serialised_begin (store : Store A B S) (calls : ι → Call A B ε α) (s₀ : S) :
    Serialised store calls s₀ [] (begin s₀) where
  nodup := .nil
  mem i := ⟨nofun, nofun⟩
  decisions before i after h := by simp at h
  table _ := rfl
  completed i h := by cases h
  alone i j h := by cases h
  held i _ h := by cases h
  valid i r h := by cases h
  follows i reads rest h := by cases h

section
variable {store : Store A B S} {calls : ι → Call A B ε α} {s₀ s : S}
  {order : List ι} {w : World A B ε α S ι} {i : ι} {lock : Option ι} {p : Place A B ε α}

variable {reads : List (Σ q, A q)} {rest : Body A B ε (Reads A ε α)}

theorem Serialised.apart (h : Serialised store calls s₀ order w)
    (hlock : w.lock = none ∨ w.lock = some i) {j : ι} (hji : j ≠ i) (hj : (calls j).locked) :
    (w.place j).underway = false := by
  by_contra hunder
  have hheld := h.held j hj (eq_true_of_not_eq_false hunder)
  obtain hnone | hsome := hlock
  · rw [hnone] at hheld
    cases hheld
  · rw [hsome] at hheld
    exact hji (Option.some.inj hheld).symm

variable [DecidableEq ι]

theorem put_held (hown : (calls i).locked → lock = some i)
    (hothers : ∀ j, j ≠ i → (calls j).locked → (w.place j).underway → lock = some j) (j : ι)
    (hj : (calls j).locked) (hunder : ((put w i s lock p).place j).underway) :
    (put w i s lock p).lock = some j := by
  by_cases hji : j = i
  · subst hji
    rw [put_self] at hunder
    have hp : ¬(p.isEnded = true ∧ lock = some j) := by
      intro h
      cases p with
      | ended => cases hunder
      | _ => exact Bool.noConfusion h.1
    show (if p.isEnded ∧ lock = some j then none else lock) = some j
    rw [if_neg hp]
    exact hown hj
  · rw [put_other hji] at hunder
    have hlock := hothers j hji hj hunder
    show (if p.isEnded ∧ lock = some i then none else lock) = some j
    rw [if_neg (fun h => hji (Option.some.inj (hlock.symm.trans h.2)))]
    exact hlock

section
variable (h : Serialised store calls s₀ order w)
include h

theorem Serialised.wait (hbefore : (w.place i).decided = false)
    (hvalid : ∀ r ∈ reads, store.look w.table r.1 = r.2)
    (hfollows : Follows store (calls i).body reads rest) (hown : (calls i).locked → lock = some i)
    (hothers : ∀ j, j ≠ i → (calls j).locked → (w.place j).underway → lock = some j) :
    Serialised store calls s₀ order (put w i w.table lock (.body reads false rest)) := by
  have hnot : (w.place i).midway = false := by
    by_contra hm
    rw [not_eq_false] at hm
    rw [Place.decided_of_midway hm] at hbefore
    cases hbefore
  have hmid : ∀ j, ((put w i w.table lock (.body reads false rest)).place j).midway =
      (w.place j).midway := by
    intro j
    by_cases hji : j = i
    · subst hji
      rw [put_self, hnot]
      rfl
    · rw [put_other hji]
  have hin : ∀ j ∈ order, j ≠ i := by
    intro j hj hji
    rw [hji, h.mem, hbefore] at hj
    cases hj
  refine ⟨h.nodup, ?_, ?_, ?_, ?_, ?_, put_held hown hothers, ?_, ?_⟩
  · intro j
    by_cases hji : j = i
    · subst hji
      rw [put_self, h.mem, hbefore]
      exact Iff.rfl
    · rw [put_other hji]
      exact h.mem j
  · intro before j after horder
    rw [put_other (hin j (by rw [horder]; simp))]
    exact h.decisions before j after horder
  · intro hall
    exact h.table fun j => (hmid j).symm.trans (hall j)
  · intro j hj
    rw [hmid j] at hj
    have hji : j ≠ i := fun e => by rw [e, hnot] at hj; cases hj
    rw [put_other hji]
    exact h.completed j hj
  · intro j k hj hk
    rw [hmid] at hj hk
    exact h.alone j k hj hk
  · intro j r hr
    by_cases hji : j = i
    · subst hji
      rw [put_self] at hr
      exact hvalid r hr
    · rw [put_other hji] at hr
      exact h.valid j r hr
  · intro j reads' rest' hj
    by_cases hji : j = i
    · subst hji
      rw [put_self] at hj
      cases hj
      exact hfollows
    · rw [put_other hji] at hj
      exact h.follows j reads' rest' hj

theorem Serialised.decide (hbefore : (w.place i).decided = false) (hafter : p.decided = true)
    (hpending : p.pending = []) (hidle : ∀ j, j ≠ i → (w.place j).midway = false)
    (hdecision : p.decision store s = some (serve store (calls i).body w.table).1)
    (hcompletion : p.completion store s = (serve store (calls i).body w.table).2)
    (hvalid : ∀ j, j ≠ i → ∀ r ∈ (w.place j).pending, store.look s r.1 = r.2)
    (hown : (calls i).locked → lock = some i)
    (hothers : ∀ j, j ≠ i → (calls j).locked → (w.place j).underway → lock = some j) :
    Serialised store calls s₀ (order ++ [i]) (put w i s lock p) := by
  have hnot : (w.place i).midway = false := by
    by_contra hm
    rw [not_eq_false] at hm
    rw [Place.decided_of_midway hm] at hbefore
    cases hbefore
  have htable : w.table = serial store calls s₀ order := by
    apply h.table
    intro j
    by_cases hji : j = i
    · rw [hji, hnot]
    · exact hidle j hji
  have hout : i ∉ order := by
    rw [h.mem, hbefore]
    exact false_ne_true
  have hmid : ∀ j, ((put w i s lock p).place j).midway → j = i := by
    intro j hj
    by_contra hji
    rw [put_other hji, hidle j hji] at hj
    cases hj
  refine ⟨?_, ?_, ?_, ?_, ?_, ?_, put_held hown hothers, ?_, ?_⟩
  · rw [nodup_append]
    refine ⟨h.nodup, nodup_singleton i, ?_⟩
    intro a ha b hb hab
    rw [mem_singleton] at hb
    exact hout (hb ▸ hab ▸ ha)
  · intro j
    by_cases hji : j = i
    · subst hji
      rw [put_self, hafter]
      simp
    · rw [put_other hji, ← h.mem j]
      simp [hji]
  · intro before j after horder
    rcases eq_nil_or_concat after with hnil | ⟨after', k, hk⟩
    · subst hnil
      obtain ⟨hb, hj⟩ := append_inj' horder rfl
      cases hj
      rw [put_self, ← hb, ← htable]
      exact hdecision
    rw [hk, concat_eq_append] at horder
    have hsplit : order ++ [i] = (before ++ j :: after') ++ [k] := by
      rw [horder]
      simp
    obtain ⟨hb, -⟩ := append_inj' hsplit rfl
    have hji : j ≠ i := fun e => hout (by rw [← e, hb]; simp)
    rw [put_other hji, Place.decision_of_not_midway (hidle j hji) _ w.table]
    exact h.decisions before j after' hb
  · intro hall
    rw [serial_snoc, ← htable, ← hcompletion]
    have hp := hall i
    rw [put_self] at hp
    exact (Place.completion_of_not_midway hp).symm
  · intro j hj
    rw [hmid j hj, put_self, serial_snoc, ← htable]
    exact hcompletion
  · intro j k hj hk
    rw [hmid j hj, hmid k hk]
  · intro j r hr
    by_cases hji : j = i
    · rw [hji, put_self, hpending] at hr
      cases hr
    · rw [put_other hji] at hr
      exact hvalid j hji r hr
  · intro j reads' rest' hj
    by_cases hji : j = i
    · rw [hji, put_self] at hj
      rw [hj] at hafter
      cases hafter
    · rw [put_other hji] at hj
      exact h.follows j reads' rest' hj

theorem Serialised.go_on (hbefore : (w.place i).decided = true) (hafter : p.decided = true)
    (hpending : p.pending = [])
    (hidle : (w.place i).midway = false → p.midway = false ∧ s = w.table)
    (hdecision : p.decision store s = (w.place i).decision store w.table)
    (hcompletion : p.completion store s = (w.place i).completion store w.table)
    (hvalid : ∀ j, j ≠ i → ∀ r ∈ (w.place j).pending, store.look s r.1 = r.2)
    (hown : (calls i).locked → lock = some i)
    (hothers : ∀ j, j ≠ i → (calls j).locked → (w.place j).underway → lock = some j) :
    Serialised store calls s₀ order (put w i s lock p) := by
  have hmid : ∀ j, ((put w i s lock p).place j).midway → (w.place j).midway := by
    intro j hj
    by_cases hji : j = i
    · subst hji
      rw [put_self] at hj
      by_contra hm
      rw [(hidle (eq_false_of_not_eq_true hm)).1] at hj
      cases hj
    · rwa [put_other hji] at hj
  refine ⟨h.nodup, ?_, ?_, ?_, ?_, ?_, put_held hown hothers, ?_, ?_⟩
  · intro j
    by_cases hji : j = i
    · subst hji
      rw [put_self, h.mem, hbefore, hafter]
    · rw [put_other hji]
      exact h.mem j
  · intro before j after horder
    rw [← h.decisions before j after horder]
    by_cases hji : j = i
    · subst hji
      rw [put_self]
      exact hdecision
    rw [put_other hji]
    show (w.place j).decision store s = _
    by_cases hm : (w.place i).midway
    · apply Place.decision_of_not_midway
      by_contra hj
      exact hji (h.alone j i (eq_true_of_not_eq_false hj) hm)
    · rw [(hidle (eq_false_of_not_eq_true hm)).2]
  · intro hall
    have hp := hall i
    rw [put_self] at hp
    have hs : s = (w.place i).completion store w.table := by
      rw [← hcompletion, Place.completion_of_not_midway hp]
    by_cases hm : (w.place i).midway
    · rw [hs]
      exact h.completed i hm
    rw [(hidle (eq_false_of_not_eq_true hm)).2]
    apply h.table
    intro j
    by_cases hji : j = i
    · rw [hji]
      exact eq_false_of_not_eq_true hm
    · have hj := hall j
      rwa [put_other hji] at hj
  · intro j hj
    rw [← h.completed j (hmid j hj)]
    by_cases hji : j = i
    · subst hji
      rw [put_self]
      exact hcompletion
    have hm : (w.place i).midway = false := by
      by_contra hi
      exact hji (h.alone j i (hmid j hj) (eq_true_of_not_eq_false hi))
    rw [put_other hji]
    show (w.place j).completion store s = _
    rw [(hidle hm).2]
  · intro j k hj hk
    exact h.alone j k (hmid j hj) (hmid k hk)
  · intro j r hr
    by_cases hji : j = i
    · rw [hji, put_self, hpending] at hr
      cases hr
    · rw [put_other hji] at hr
      exact hvalid j hji r hr
  · intro j reads' rest' hj
    by_cases hji : j = i
    · rw [hji, put_self] at hj
      rw [hj] at hafter
      cases hafter
    · rw [put_other hji] at hj
      exact h.follows j reads' rest' hj

theorem Serialised.midway_on {rest rest' : Body A B ε (Reads A ε α)}
    (hplace : w.place i = .body reads true rest) (reads' : List (Σ q, A q))
    (hserve : serve store rest' s = serve store rest w.table)
    (hvalid : ∀ j, j ≠ i → ∀ r ∈ (w.place j).pending, store.look s r.1 = r.2)
    (hown : (calls i).locked → lock = some i)
    (hothers : ∀ j, j ≠ i → (calls j).locked → (w.place j).underway → lock = some j) :
    Serialised store calls s₀ order (put w i s lock (.going reads' true rest')) := by
  obtain ⟨hdecided, hpending, hdecision, hcompletion⟩ :=
    Place.going_wrote store s reads' rest'
  refine h.go_on ?_ hdecided hpending ?_ ?_ ?_ hvalid hown hothers
  · rw [hplace]
    rfl
  · intro hm
    rw [hplace] at hm
    cases hm
  · rw [hdecision, hserve, hplace]
    rfl
  · rw [hcompletion, hserve, hplace]
    rfl

end

variable [∀ q, DecidableEq (A q)]

section
variable (h : Serialised store calls s₀ order w)
include h

theorem Serialised.idle (hbefore : (w.place i).decided = false)
    (hafter : ((SerialCalls.step store calls w i).place i).decided = true)
    (hlock : (calls i).locked → w.lock = none ∨ w.lock = some i) (hok : Undisturbed store calls w i)
    (j : ι) (hji : j ≠ i) : (w.place j).midway = false := by
  by_contra hm
  rw [not_eq_false] at hm
  by_cases hboth : (calls i).locked ∧ (calls j).locked
  · have hunder := h.apart (hlock hboth.1) hji hboth.2
    rw [Place.underway_of_midway hm] at hunder
    cases hunder
  · exact (hok j hji hboth).1 (by rw [hbefore]; exact false_ne_true) hafter hm

/-- A step before the first write: the reads have led to the rest of the body, which is to wait for
the next access or has come to the end. -/
theorem Serialised.read (hbefore : (w.place i).decided = false)
    (hstep : step store calls w i = put w i w.table lock (.going reads false rest))
    (hvalid : ∀ r ∈ reads, store.look w.table r.1 = r.2)
    (hfollows : Follows store (calls i).body reads rest)
    (hlock : (calls i).locked → w.lock = none ∨ w.lock = some i)
    (hown : (calls i).locked → lock = some i)
    (hothers : ∀ j, j ≠ i → (calls j).locked → (w.place j).underway → lock = some j)
    (hok : Undisturbed store calls w i) :
    ∃ order', Serialised store calls s₀ order' (step store calls w i) := by
  have hserve := hfollows w.table hvalid
  obtain hgoing | ⟨hdecided, hpending, hmidway, hdecision, hsame⟩ :=
    Place.going_reading store w.table reads rest
  · rw [hstep, hgoing]
    exact ⟨order, h.wait hbefore hvalid hfollows hown hothers⟩
  refine ⟨order ++ [i], ?_⟩
  have hidle := h.idle hbefore (by rw [hstep, put_self]; exact hdecided) hlock hok
  rw [hstep]
  apply h.decide hbefore hdecided hpending hidle
  · rw [hdecision, hserve]
  · rw [Place.completion_of_not_midway hmidway, hserve, hsame]
  · exact fun j _ => h.valid j
  · exact hown
  · exact hothers

theorem Serialised.valid_after (hlock : (calls i).locked → w.lock = some i)
    (hok : Undisturbed store calls w i) {j : ι} (hji : j ≠ i) : ∀ r ∈ (w.place j).pending,
      store.look (step store calls w i).table r.1 = r.2 := by
  intro r hr
  by_cases hboth : (calls i).locked ∧ (calls j).locked
  · have hunder := h.apart (.inr (hlock hboth.1)) hji hboth.2
    rw [Place.underway_of_pending hr] at hunder
    cases hunder
  · exact (hok j hji hboth).2 r hr

theorem Serialised.step (hok : Undisturbed store calls w i) :
    ∃ order', Serialised store calls s₀ order' (step store calls w i) := by
  have hothers : ∀ j, j ≠ i → (calls j).locked → (w.place j).underway → w.lock = some j :=
    fun j _ => h.held j
  cases hplace : w.place i with
  | waiting =>
    have hbefore : (w.place i).decided = false := by rw [hplace]; rfl
    have hfollows : Follows store (calls i).body [] (calls i).body := fun _ _ => rfl
    by_cases hlocked : (calls i).locked
    · cases hlock : w.lock with
      | none =>
        have hstep : SerialCalls.step store calls w i =
            put w i w.table (some i) (.going [] false (calls i).body) := by
          simp only [SerialCalls.step, hplace, hlocked, hlock, if_true]
        refine h.read hbefore hstep (by simp) hfollows (fun _ => .inl hlock) (fun _ => rfl) ?_ hok
        intro j hji hj hunder
        rw [h.apart (.inl hlock) hji hj] at hunder
        cases hunder
      | some =>
        have hstep : SerialCalls.step store calls w i = w := by
          simp only [SerialCalls.step, hplace, hlocked, hlock, if_true]
        rw [hstep]
        exact ⟨order, h⟩
    · have hstep : SerialCalls.step store calls w i =
          put w i w.table w.lock (.going [] false (calls i).body) := by
        simp only [SerialCalls.step, hplace, hlocked, if_false, false_eq_true]
      exact h.read hbefore hstep (by simp) hfollows (fun hi => absurd hi hlocked)
        (fun hi => absurd hi hlocked) hothers hok
  | body reads wrote rest =>
    have hown : (calls i).locked → w.lock = some i := fun hi => h.held i hi (by rw [hplace]; rfl)
    have hvalid := fun j (hji : j ≠ i) => h.valid_after hown hok hji
    cases rest with
    | done | fail =>
      have hstep : SerialCalls.step store calls w i = w := by simp only [SerialCalls.step, hplace]
      rw [hstep]
      exact ⟨order, h⟩
    | read q k =>
      have hstep : SerialCalls.step store calls w i = put w i w.table w.lock
          (.going (reads ++ [⟨q, store.look w.table q⟩]) wrote (k (store.look w.table q))) := by
        simp only [SerialCalls.step, hplace]
      cases wrote with
      | false =>
        have hbefore : (w.place i).decided = false := by rw [hplace]; rfl
        have hreads := h.valid i
        rw [hplace] at hreads
        refine h.read hbefore hstep ?_ ?_ (fun hi => .inr (hown hi)) hown hothers hok
        · intro r hr
          rw [mem_append, mem_singleton] at hr
          obtain hr | hr := hr
          · exact hreads r hr
          · rw [hr]
        · -- the new read is answered as it is now
          intro s hs
          rw [h.follows i reads _ hplace s fun r hr => hs r (by simp [hr])]
          have hnew := hs ⟨q, store.look w.table q⟩ (by simp)
          show serve store (k (store.look s q)) s = _
          rw [hnew]
      | true =>
        rw [hstep]
        exact ⟨order, h.midway_on hplace _ rfl (fun j _ => h.valid j) hown hothers⟩
    | write u k =>
      have hstep : SerialCalls.step store calls w i = put w i (store.change w.table u).2 w.lock
          (.going reads true (k (store.change w.table u).1)) := by
        simp only [SerialCalls.step, hplace]
      cases wrote with
      | false =>
        obtain ⟨hdecided, hpending, hdecision, hcompletion⟩ :=
          Place.going_wrote store (store.change w.table u).2 reads (k (store.change w.table u).1)
        have hbefore : (w.place i).decided = false := by rw [hplace]; rfl
        have hreads := h.valid i
        rw [hplace] at hreads
        have hserve := h.follows i reads _ hplace w.table hreads
        have hidle := h.idle hbefore (by rw [hstep, put_self]; exact hdecided)
          (fun hi => .inr (hown hi)) hok
        rw [hstep] at hvalid ⊢
        refine ⟨order ++ [i], h.decide hbefore hdecided hpending hidle ?_ ?_ hvalid hown hothers⟩
        · rw [hdecision, hserve]
          rfl
        · rw [hcompletion, hserve]
          rfl
      | true =>
        rw [hstep] at hvalid ⊢
        exact ⟨order, h.midway_on hplace _ rfl hvalid hown hothers⟩
  | answer t rest =>
    have hown : (calls i).locked → w.lock = some i := fun hi => h.held i hi (by rw [hplace]; rfl)
    cases rest with
    | done | fail =>
      have hstep : SerialCalls.step store calls w i = w := by simp only [SerialCalls.step, hplace]
      rw [hstep]
      exact ⟨order, h⟩
    | read q k =>
      have hstep : SerialCalls.step store calls w i =
          put w i w.table w.lock (.answering t (k (store.look w.table q))) := by
        simp only [SerialCalls.step, hplace]
      rw [hstep]
      refine ⟨order, h.go_on ?_ (Place.answering_decided t _) (Place.answering_pending t _) ?_ ?_ ?_
        (fun j _ => h.valid j) hown hothers⟩
      · rw [hplace]
        rfl
      · exact fun _ => ⟨Place.answering_midway t _, rfl⟩
      · rw [Place.answering_decision, hplace]
        rfl
      · rw [Place.answering_completion, hplace]
        rfl
  | ended =>
    have hstep : SerialCalls.step store calls w i = w := by simp only [SerialCalls.step, hplace]
    rw [hstep]
    exact ⟨order, h⟩

end

/-- Calls that interleave without disturbing each other, and have all ended, leave the table that
they leave one after the other in some order, and each comes to the decision that it comes to
there. -/
theorem run_serialised (store : Store A B S) (calls : ι → Call A B ε α) (s₀ : S)
    (schedule : List ι)
    (hok : Run.StepsOk (SerialCalls.step store calls) (Undisturbed store calls) (begin s₀) schedule) :
    ∃ order, Serialised store calls s₀ order
      (Run.run (SerialCalls.step store calls) (begin s₀) schedule) := by
  have halong := Run.along_of_inv (I := fun w => ∃ order, Serialised store calls s₀ order w)
    (fun w i ⟨order, h⟩ hi => h.step hi) ⟨[], serialised_begin store calls s₀⟩ hok
  exact halong.last

end

end SerialCalls

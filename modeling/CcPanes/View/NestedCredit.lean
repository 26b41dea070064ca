import CcPanes.Foundation.Run
import Mathlib.Algebra.Order.Group.Int
import Mathlib.Data.List.Count

/-!
# The credit of nested deliveries

`terminalDeliveryCredit.ts` on its own.  Code outside runs in the two callbacks, `deliver` and
`complete`; it may start deliveries, claim the current credit, call the release functions it has been
given as often as it likes, and then it returns or throws.  The same calls may come when no callback
is open.  A tree of nested deliveries, walked in its order, is such a sequence of events.
-/

namespace CcPanes.NestedCredit

open Run List Option

variable {s : State}

/-! ## the functions -/

structure Credit where
  /-- `deliver` is on the stack -/
  isOpen : Bool
  pendingClaims : Int
  completed : Bool

/-- what the function that `takeCurrentTerminalDeliveryCredit` returned has in its closure -/
structure Claim where
  credit : Nat
  settled : Bool
deriving DecidableEq

inductive Frame where
  | deliver (credit : Nat) (previous : Option Nat)
  | complete (credit : Nat)

structure State where
  /-- one for each call to `deliverTerminalDataWithDeferredCredit` -/
  credits : List Credit
  /-- one for each call to `takeCurrentTerminalDeliveryCredit` that was given a function -/
  claims : List Claim
  currentDeliveryCredit : Option Nat
  /-- the innermost first -/
  stack : List Frame
  /-- the credits whose `complete` has been called -/
  completions : List Nat

def init : State := ⟨[], [], none, [], []⟩

def settle (s : State) (i : Nat) : State :=
  match s.credits[i]? with
  | none => s
  | some credit =>
    if credit.completed || credit.isOpen || 0 < credit.pendingClaims then s
    else
      { s with
        credits := s.credits.set i { credit with completed := true }
        completions := s.completions ++ [i]
        stack := .complete i :: s.stack }

/-- up to the call to `deliver` -/
def deliverTerminalDataWithDeferredCredit (s : State) : State :=
  { s with
    credits := s.credits ++ [⟨true, 0, false⟩]
    currentDeliveryCredit := some s.credits.length
    stack := .deliver s.credits.length s.currentDeliveryCredit :: s.stack }

/-- the `finally` block behind the call to `deliver` -/
def deliverDone (s : State) (i : Nat) (previous : Option Nat) : State :=
  settle
    { s with
      currentDeliveryCredit := previous
      credits := s.credits.modify i fun credit => { credit with isOpen := false } } i

/-- the result is the number of the function, `none` for `null` -/
def takeCurrentTerminalDeliveryCredit (s : State) : State × Option Nat :=
  match s.currentDeliveryCredit with
  | none => (s, none)
  | some i =>
    match s.credits[i]? with
    | none => (s, none)
    | some credit =>
      if !credit.isOpen then (s, none)
      else
        ({ s with
            credits := s.credits.set i { credit with pendingClaims := credit.pendingClaims + 1 }
            claims := s.claims ++ [⟨i, false⟩] }, some s.claims.length)

def release (s : State) (k : Nat) : State :=
  match s.claims[k]? with
  | none => s
  | some claim =>
    if claim.settled then s
    else
      settle
        { s with
          claims := s.claims.set k { claim with settled := true }
          credits := s.credits.modify claim.credit fun credit =>
            { credit with pendingClaims := credit.pendingClaims - 1 } }
        claim.credit

def leave (s : State) : State :=
  match s.stack with
  | [] => s
  | .complete _ :: stack => { s with stack := stack }
  | .deliver i previous :: stack => deliverDone { s with stack := stack } i previous

/-! ## runs -/

inductive Event where
  | deliver
  | take
  | release (claim : Nat)
  | returns
  /-- what is thrown passes `finally`; whether the code outside it catches it is its own affair -/
  | throws

def step (s : State) : Event → State
  | .deliver => deliverTerminalDataWithDeferredCredit s
  | .take => (takeCurrentTerminalDeliveryCredit s).1
  | .release claim => release s claim
  | .returns => leave s
  | .throws => leave s

def Frame.delivering : Frame → Option Nat
  | .deliver i _ => some i
  | .complete _ => none

namespace State

/-- the deliveries whose `deliver` is on the stack, the innermost first -/
def delivering (s : State) : List Nat := s.stack.filterMap Frame.delivering

def unreleased (s : State) (i : Nat) : Nat := s.claims.countP fun claim => claim = ⟨i, false⟩

/-- how often `complete` has to have been called by now -/
def dueCompletions (s : State) (i : Nat) : Nat :=
  if i ∈ s.delivering ∨ 0 < s.unreleased i then 0 else 1

end State

def CompletesWhenDue (s : State) : Prop :=
  ∀ i < s.credits.length, s.completions.count i = s.dueCompletions i

/-- a claim goes to the innermost delivery on the stack, and there is none without a delivery -/
def ChargesInnermost (s : State) (e : Event) : Prop :=
  e = .take →
    (takeCurrentTerminalDeliveryCredit s).2 = s.delivering.head?.map (fun _ => s.claims.length) ∧
      (step s e).claims = s.claims ++ (s.delivering.head?.map fun i => ⟨i, false⟩).toList

section
variable {β : Type} {l : List β} {i j : Nat} {b c : β}

theorem of_set_eq_some (h : (l.set i b)[j]? = some c) : j = i ∧ c = b ∨ j ≠ i ∧ l[j]? = some c := by
  by_cases hij : i = j
  · subst hij
    have hlt : i < l.length := by simpa using (List.getElem?_eq_some_iff.mp h).1
    rw [getElem?_set_self hlt] at h
    exact .inl ⟨rfl, (some.inj h).symm⟩
  · rw [getElem?_set_ne hij] at h
    exact .inr ⟨Ne.symm hij, h⟩

theorem of_modify_eq_some {f : β → β} (h : (l.modify i f)[j]? = some c) :
    (j = i ∧ ∃ b, l[j]? = some b ∧ c = f b) ∨ j ≠ i ∧ l[j]? = some c := by
  rw [getElem?_modify] at h
  obtain ⟨b, hb, rfl⟩ := map_eq_some_iff.mp h
  by_cases hij : i = j
  · exact .inl ⟨hij.symm, b, hb, by rw [if_pos hij]⟩
  · rw [if_neg hij]
    exact .inr ⟨Ne.symm hij, hb⟩

theorem of_concat_eq_some (h : (l ++ [b])[j]? = some c) :
    j = l.length ∧ c = b ∨ l[j]? = some c := by
  rcases Nat.lt_trichotomy j l.length with hj | hj | hj
  · rw [getElem?_append_left hj] at h
    exact .inr h
  · subst hj
    rw [getElem?_concat_length] at h
    exact .inl ⟨rfl, (some.inj h).symm⟩
  · have hlen := (List.getElem?_eq_some_iff.mp h).1
    rw [length_append, length_singleton] at hlen
    omega

theorem countP_set {p : β → Bool} (h : l[i]? = some b) :
    (l.set i c).countP p + (if p b then 1 else 0) = l.countP p + if p c then 1 else 0 := by
  induction l generalizing i with
  | nil => cases h
  | cons d l ih =>
    cases i with
    | zero =>
      cases h
      simp only [set_cons_zero, countP_cons]
      omega
    | succ =>
      have := ih h
      simp only [set_cons_succ, countP_cons]
      omega

end

/-! ## the invariant -/

/-- `currentDeliveryCredit`, and what each delivery will restore -/
def Nested : List Frame → Option Nat → Prop
  | [], current => current = none
  | .deliver i previous :: stack, current => current = some i ∧ Nested stack previous
  | .complete _ :: stack, current => Nested stack current

theorem Nested.current_eq {stack : List Frame} {current : Option Nat} (h : Nested stack current) :
    current = (stack.filterMap Frame.delivering).head? := by
  induction stack with
  | nil => exact h
  | cons frame stack ih =>
    cases frame with
    | deliver => exact h.1
    | complete => exact ih h

structure Counted (s : State) (i : Nat) (credit : Credit) : Prop where
  isOpen : credit.isOpen = true ↔ i ∈ s.delivering
  pending : credit.pendingClaims = s.unreleased i
  once : s.completions.count i = if credit.completed then 1 else 0

def Credit.Settled (credit : Credit) : Prop :=
  credit.completed = true ↔ credit.isOpen = false ∧ credit.pendingClaims = 0

/-- the counters tell what is on the stack and what is unreleased -/
structure Ledger (s : State) : Prop where
  counted : ∀ (i : Nat) (credit : Credit), s.credits[i]? = some credit → Counted s i credit
  nested : Nested s.stack s.currentDeliveryCredit
  distinct : s.delivering.Nodup
  onStack : ∀ i ∈ s.delivering, i < s.credits.length
  claimed : ∀ claim ∈ s.claims, claim.credit < s.credits.length
  completed : ∀ i ∈ s.completions, i < s.credits.length

structure Inv (s : State) : Prop extends Ledger s where
  settled : ∀ (i : Nat) (credit : Credit), s.credits[i]? = some credit → credit.Settled

structure Unsettled (s : State) (i : Nat) : Prop extends Ledger s where
  settled : ∀ (j : Nat) (credit : Credit), s.credits[j]? = some credit → j ≠ i → credit.Settled
  incomplete : ∀ credit : Credit, s.credits[i]? = some credit → credit.completed = false

theorem inv_init : Inv init where
  counted i credit h := by simp [init] at h
  settled i credit h := by simp [init] at h
  nested := rfl
  distinct := nodup_nil
  onStack i h := by simp [init, State.delivering] at h
  claimed claim h := by simp [init] at h
  completed i h := by simp [init] at h

theorem Unsettled.held {i : Nat} (h : Unsettled s i)
    (hheld : ∀ credit : Credit, s.credits[i]? = some credit →
      credit.isOpen = true ∨ 0 < credit.pendingClaims) : Inv s := by
  refine ⟨h.toLedger, fun j credit hj => ?_⟩
  by_cases hne : j = i
  · subst hne
    refine ⟨fun hc => absurd ((h.incomplete credit hj).symm.trans hc) (by simp), ?_⟩
    rintro ⟨hopen, hzero⟩
    rcases hheld credit hj with hopen' | hpos
    · exact absurd (hopen.symm.trans hopen') (by simp)
    · omega
  · exact h.settled j credit hj hne

theorem Unsettled.free {i : Nat} {credit : Credit} (h : Unsettled s i)
    (hi : s.credits[i]? = some credit) (hopen : credit.isOpen = false)
    (hzero : credit.pendingClaims = 0) :
    Inv
      { s with
        credits := s.credits.set i { credit with completed := true }
        completions := s.completions ++ [i]
        stack := .complete i :: s.stack } := by
  have hlt : i < s.credits.length := (List.getElem?_eq_some_iff.mp hi).1
  refine ⟨⟨fun j c hj => ?_, h.nested, h.distinct, fun j hj => ?_, fun claim hclaim => ?_,
    fun j hj => ?_⟩, fun j c hj => ?_⟩
  · rcases of_set_eq_some hj with ⟨rfl, rfl⟩ | ⟨hne, hj⟩
    · have hcounted := h.counted j credit hi
      have hnone : s.completions.count j = 0 := by rw [hcounted.once, h.incomplete credit hi]; rfl
      refine ⟨hcounted.isOpen, hcounted.pending, ?_⟩
      rw [count_append, hnone, count_singleton_self]
      rfl
    · obtain ⟨hopen, hpending, honce⟩ := h.counted j c hj
      refine ⟨hopen, hpending, ?_⟩
      rw [count_append, honce, count_eq_zero_of_not_mem (by simpa using hne)]
      rfl
  · rw [length_set]
    exact h.onStack j hj
  · rw [length_set]
    exact h.claimed claim hclaim
  · rw [length_set]
    rcases mem_append.mp hj with hj | hj
    · exact h.completed j hj
    · rwa [mem_singleton.mp hj]
  · rcases of_set_eq_some hj with ⟨rfl, rfl⟩ | ⟨hne, hj⟩
    · exact ⟨fun _ => ⟨hopen, hzero⟩, fun _ => rfl⟩
    · exact h.settled j c hj hne

theorem Unsettled.settle {i : Nat} (h : Unsettled s i) : Inv (settle s i) := by
  unfold NestedCredit.settle
  split
  · next hnone =>
    refine h.held fun credit hi => ?_
    rw [hnone] at hi
    cases hi
  next credit hi =>
  have hfresh := h.incomplete credit hi
  split
  · next hheld =>
    refine h.held fun c hc => ?_
    cases hi.symm.trans hc
    simpa [hfresh] using hheld
  next hfree =>
  simp only [hfresh, Bool.false_or, Bool.or_eq_true, decide_eq_true_eq, not_or,
    Bool.not_eq_true, not_lt] at hfree
  have hpending := (h.counted i credit hi).pending
  exact h.free hi hfree.1 (by omega)

/-! ## the steps -/

theorem Inv.deliver (h : Inv s) : Inv (deliverTerminalDataWithDeferredCredit s) := by
  have hnew : s.credits.length ∉ s.delivering := fun hmem => absurd (h.onStack _ hmem) (by omega)
  have hunclaimed : s.unreleased s.credits.length = 0 := by
    refine countP_eq_zero.mpr fun claim hclaim heq => ?_
    have hlt := h.claimed claim hclaim
    rw [of_decide_eq_true heq] at hlt
    exact absurd hlt (Nat.lt_irrefl _)
  refine ⟨⟨fun j c hj => ?_, ⟨rfl, h.nested⟩, nodup_cons.mpr ⟨hnew, h.distinct⟩, fun j hj => ?_,
    fun claim hclaim => ?_, fun j hj => ?_⟩, fun j c hj => ?_⟩
  · rcases of_concat_eq_some hj with ⟨rfl, rfl⟩ | hj
    · refine ⟨⟨fun _ => mem_cons_self, fun _ => rfl⟩, ?_, ?_⟩
      · exact (congrArg Int.ofNat hunclaimed).symm
      · exact count_eq_zero_of_not_mem fun hmem => absurd (h.completed _ hmem) (by omega)
    obtain ⟨hopen, hpending, honce⟩ := h.counted j c hj
    have hne : j ≠ s.credits.length := Nat.ne_of_lt (List.getElem?_eq_some_iff.mp hj).1
    refine ⟨hopen.trans ⟨fun hmem => mem_cons_of_mem _ hmem, fun hmem => ?_⟩, hpending, honce⟩
    exact (mem_cons.mp hmem).resolve_left hne
  · show j < (s.credits ++ [_]).length
    rw [length_append, length_singleton]
    rcases mem_cons.mp hj with rfl | hj
    · exact Nat.lt_succ_self _
    · exact Nat.lt_succ_of_lt (h.onStack j hj)
  · show claim.credit < (s.credits ++ [_]).length
    rw [length_append, length_singleton]
    exact Nat.lt_succ_of_lt (h.claimed claim hclaim)
  · show j < (s.credits ++ [_]).length
    rw [length_append, length_singleton]
    exact Nat.lt_succ_of_lt (h.completed j hj)
  · rcases of_concat_eq_some hj with ⟨rfl, rfl⟩ | hj
    · exact ⟨nofun, fun hc => nomatch hc.1⟩
    · exact h.settled j c hj

theorem Inv.take_eq (h : Inv s) :
    (s.delivering = [] ∧ takeCurrentTerminalDeliveryCredit s = (s, none)) ∨
      ∃ i credit, s.delivering.head? = some i ∧ s.credits[i]? = some credit ∧
        credit.isOpen = true ∧ takeCurrentTerminalDeliveryCredit s =
          ({ s with
              credits := s.credits.set i { credit with pendingClaims := credit.pendingClaims + 1 }
              claims := s.claims ++ [⟨i, false⟩] }, some s.claims.length) := by
  have hcurrent : s.currentDeliveryCredit = s.delivering.head? := h.nested.current_eq
  unfold takeCurrentTerminalDeliveryCredit
  cases hd : s.delivering with
  | nil =>
    rw [hd] at hcurrent
    rw [hcurrent]
    exact .inl ⟨rfl, rfl⟩
  | cons i =>
    have hmem : i ∈ s.delivering := by rw [hd]; exact mem_cons_self
    have hlt := h.onStack i hmem
    have hi : s.credits[i]? = some s.credits[i] := getElem?_eq_getElem hlt
    have hopen := (h.counted i _ hi).isOpen.mpr hmem
    rw [hd] at hcurrent
    refine .inr ⟨i, _, rfl, hi, hopen, ?_⟩
    rw [hcurrent]
    simp only [head?_cons, hi, hopen, Bool.not_true, Bool.false_eq_true, if_false]

theorem Inv.take (h : Inv s) : Inv (takeCurrentTerminalDeliveryCredit s).1 := by
  rcases h.take_eq with ⟨_, heq⟩ | ⟨i, credit, hhead, hi, hopen, heq⟩
  · rw [heq]
    exact h
  rw [heq]
  have hlt : i < s.credits.length := (List.getElem?_eq_some_iff.mp hi).1
  have hcounted := h.counted i credit hi
  refine ⟨⟨fun j c hj => ?_, h.nested, h.distinct, fun j hj => ?_, fun claim hclaim => ?_,
    fun j hj => ?_⟩, fun j c hj => ?_⟩
  · rcases of_set_eq_some hj with ⟨rfl, rfl⟩ | ⟨hne, hj⟩
    · refine ⟨hcounted.isOpen, ?_, hcounted.once⟩
      show credit.pendingClaims + 1 = ((s.claims ++ [_]).countP _ : Nat)
      rw [countP_append, countP_singleton, if_pos (by simp), hcounted.pending]
      rfl
    obtain ⟨hopen, hpending, honce⟩ := h.counted j c hj
    refine ⟨hopen, ?_, honce⟩
    show c.pendingClaims = ((s.claims ++ [_]).countP _ : Nat)
    rw [countP_append, countP_singleton, if_neg (by simpa using Ne.symm hne), hpending]
    rfl
  · rw [length_set]
    exact h.onStack j hj
  · rw [length_set]
    rcases mem_append.mp hclaim with hclaim | hclaim
    · exact h.claimed claim hclaim
    · rwa [mem_singleton.mp hclaim]
  · rw [length_set]
    exact h.completed j hj
  · rcases of_set_eq_some hj with ⟨rfl, rfl⟩ | ⟨hne, hj⟩
    · have hincomplete : credit.completed ≠ true := fun hc =>
        absurd (hopen.symm.trans ((h.settled j credit hi).mp hc).1) (by simp)
      exact ⟨fun hc => absurd hc hincomplete, fun hc => nomatch (hopen.symm.trans hc.1)⟩
    · exact h.settled j c hj

theorem unreleased_released {k i : Nat} (hk : s.claims[k]? = some ⟨i, false⟩) (j : Nat) :
    State.unreleased { s with claims := s.claims.set k ⟨i, true⟩ } j + (if j = i then 1 else 0)
      = s.unreleased j := by
  have hcount := countP_set (c := ⟨i, true⟩) (p := fun claim => claim = ⟨j, false⟩) hk
  simp only [Claim.mk.injEq, and_true, decide_eq_true_eq, Bool.true_eq_false, and_false, decide_false,
    Bool.false_eq_true, if_false, Nat.add_zero, eq_comm (a := i)] at hcount
  show (s.claims.set k _).countP _ + _ = s.claims.countP _
  exact hcount

theorem Inv.release (h : Inv s) (k : Nat) : Inv (release s k) := by
  unfold NestedCredit.release
  split
  · exact h
  next claim hk =>
  obtain ⟨i, settled⟩ := claim
  cases settled with
  | true => exact h
  | false =>
    refine Unsettled.settle ⟨⟨fun j c hj => ?_, h.nested, h.distinct, fun j hj => ?_,
      fun claim hclaim => ?_, fun j hj => ?_⟩, fun j c hj hne => ?_, fun c hj => ?_⟩
    · have hcount := unreleased_released hk j
      rcases of_modify_eq_some hj with ⟨rfl, b, hb, rfl⟩ | ⟨hne, hj⟩
      · obtain ⟨hopen, hpending, honce⟩ := h.counted j b hb
        refine ⟨hopen, ?_, honce⟩
        rw [if_pos rfl] at hcount
        show b.pendingClaims - 1 = State.unreleased { s with claims := s.claims.set k ⟨j, true⟩ } j
        omega
      · obtain ⟨hopen, hpending, honce⟩ := h.counted j c hj
        refine ⟨hopen, ?_, honce⟩
        rw [if_neg hne] at hcount
        show c.pendingClaims = State.unreleased { s with claims := s.claims.set k ⟨i, true⟩ } j
        omega
    · rw [length_modify]
      exact h.onStack j hj
    · rw [length_modify]
      rcases mem_or_eq_of_mem_set hclaim with hclaim | rfl
      · exact h.claimed claim hclaim
      · exact h.claimed ⟨i, false⟩ (mem_of_getElem? hk)
    · rw [length_modify]
      exact h.completed j hj
    · rcases of_modify_eq_some hj with ⟨heq, _⟩ | ⟨_, hj⟩
      · exact absurd heq hne
      · exact h.settled j c hj
    · rcases of_modify_eq_some hj with ⟨_, b, hb, rfl⟩ | ⟨hne, _⟩
      · -- the claim is still out, so the credit cannot have been completed
        have hpos : 0 < s.unreleased i :=
          countP_pos_iff.mpr ⟨_, mem_of_getElem? hk, by simp⟩
        have hpending := (h.counted i b hb).pending
        refine Bool.eq_false_iff.mpr fun hc => ?_
        have hzero := ((h.settled i b hb).mp hc).2
        omega
      · exact absurd rfl hne

theorem Inv.leave (h : Inv s) : Inv (leave s) := by
  unfold NestedCredit.leave
  have hnested := h.nested
  have hdistinct := h.distinct
  unfold State.delivering at hdistinct
  split
  · exact h
  · next i stack hs =>
    rw [hs] at hnested hdistinct
    have hsame : s.delivering = stack.filterMap Frame.delivering := by
      unfold State.delivering
      rw [hs]
      rfl
    refine ⟨⟨fun j c hj => ?_, hnested, hdistinct, fun j hj => ?_, h.claimed, h.completed⟩,
      h.settled⟩
    · obtain ⟨hopen, hpending, honce⟩ := h.counted j c hj
      rw [hsame] at hopen
      exact ⟨hopen, hpending, honce⟩
    · exact h.onStack j (hsame ▸ hj)
  next i previous stack hs =>
  rw [hs] at hnested hdistinct
  have hcons : s.delivering = i :: stack.filterMap Frame.delivering := by
    unfold State.delivering
    rw [hs]
    rfl
  obtain ⟨hnotMem, hdistinct⟩ := nodup_cons.mp hdistinct
  refine Unsettled.settle ⟨⟨fun j c hj => ?_, hnested.2, hdistinct, fun j hj => ?_,
    fun claim hclaim => ?_, fun j hj => ?_⟩, fun j c hj hne => ?_, fun c hj => ?_⟩
  · rcases of_modify_eq_some hj with ⟨rfl, b, hb, rfl⟩ | ⟨hne, hj⟩
    · obtain ⟨_, hpending, honce⟩ := h.counted j b hb
      exact ⟨⟨nofun, fun hmem => absurd hmem hnotMem⟩, hpending, honce⟩
    obtain ⟨hopen, hpending, honce⟩ := h.counted j c hj
    rw [hcons] at hopen
    refine ⟨hopen.trans ⟨fun hmem => ?_, fun hmem => mem_cons_of_mem _ hmem⟩, hpending, honce⟩
    exact (mem_cons.mp hmem).resolve_left hne
  · rw [length_modify]
    exact h.onStack j (hcons ▸ mem_cons_of_mem _ hj)
  · rw [length_modify]
    exact h.claimed claim hclaim
  · rw [length_modify]
    exact h.completed j hj
  · rcases of_modify_eq_some hj with ⟨heq, _⟩ | ⟨_, hj⟩
    · exact absurd heq hne
    · exact h.settled j c hj
  · rcases of_modify_eq_some hj with ⟨_, b, hb, rfl⟩ | ⟨hne, _⟩
    · have hopen := (h.counted i b hb).isOpen.mpr (hcons ▸ mem_cons_self)
      refine Bool.eq_false_iff.mpr fun hc => ?_
      exact absurd (hopen.symm.trans ((h.settled i b hb).mp hc).1) (by simp)
    · exact absurd rfl hne

theorem inv_step (s : State) (e : Event) (h : Inv s) : Inv (step s e) := by
  cases e with
  | deliver => exact h.deliver
  | take => exact h.take
  | release claim => exact h.release claim
  | returns => exact h.leave
  | throws => exact h.leave

theorem Inv.completesWhenDue (h : Inv s) : CompletesWhenDue s := by
  intro i hi
  have hget : s.credits[i]? = some s.credits[i] := getElem?_eq_getElem hi
  obtain ⟨hopen, hpending, honce⟩ := h.counted i _ hget
  have hsettled := h.settled i _ hget
  unfold Credit.Settled at hsettled
  rw [hpending, ← Bool.not_eq_true, hopen] at hsettled
  unfold State.dueCompletions
  rw [honce]
  by_cases hheld : i ∈ s.delivering ∨ 0 < s.unreleased i
  · rw [if_pos hheld, if_neg]
    intro hc
    obtain ⟨hnotMem, hzero⟩ := hsettled.mp hc
    rcases hheld with hmem | hpos
    · exact hnotMem hmem
    · omega
  · rw [if_neg hheld, if_pos]
    rw [not_or] at hheld
    exact hsettled.mpr ⟨hheld.1, by omega⟩

theorem Inv.chargesInnermost (h : Inv s) (e : Event) : ChargesInnermost s e := by
  rintro rfl
  show _ ∧ (takeCurrentTerminalDeliveryCredit s).1.claims = _
  rcases h.take_eq with ⟨hnone, heq⟩ | ⟨i, credit, hhead, _, _, heq⟩
  · rw [heq, hnone]
    exact ⟨rfl, (append_nil _).symm⟩
  · rw [heq, hhead]
    exact ⟨rfl, rfl⟩

/-- **`complete` runs exactly once**, when `deliver` is off the stack and every claim is released,
and a claim is charged to the innermost delivery. -/
theorem complete_exactly_once (es : List Event) :
    Along step CompletesWhenDue init es ∧ StepsOk step ChargesInnermost init es := by
  refine ⟨along_iff.mpr fun pre post _ => ?_, stepsOk_iff.mpr fun pre e post _ => ?_⟩
  · exact (run_inv inv_step inv_init pre).completesWhenDue
  · exact (run_inv inv_step inv_init pre).chargesInnermost e

/-- an inner delivery throws while the outer one's claim is out; the claim is released twice -/
example :
    (run step init
      [.deliver, .take, .deliver, .take, .release 1, .throws, .returns, .returns, .release 0,
        .release 0]).completions = [1, 0] := by
  decide

end CcPanes.NestedCredit

import CcPanes.Foundation.Run
import CcPanes.View.OutputService

/-!
# Flow control credits of the front end

While an output event is dispatched, every view claims a share of the chunk's credit and gives it
back once the chunk is parsed or dropped; when all shares are back the chunk counts as processed.
Chunks that waited in the pending buffer are handed to their view outside of any dispatch and carry
no credit.
-/

namespace CcPanes
open List

namespace DeliveryCredit

open Run

variable {w : World}

/-! ## the acknowledged position -/

structure AckState where
  processedEndSeq : Nat
  charsSinceReport : Nat
  reportedEndSeq : Nat
  /-- the timer of the next report is set -/
  timer : Bool

def ackBatchChars : Nat := 64 * 1024

/-- the entry of the session in `states`, if it has one -/
abbrev Ack := Option AckState

def Ack.stateOf (ack : Ack) : AckState := ack.getD ⟨0, 0, 0, false⟩

def Ack.flush (ack : Ack) : Ack :=
  ack.map fun state =>
    { state with
      timer := false
      charsSinceReport := 0
      reportedEndSeq := max state.reportedEndSeq state.processedEndSeq }

def noteOutputConsumed (ack : Ack) (endSeq : Option Nat) (chars : Nat) : Ack :=
  match endSeq with
  | none => ack
  | some endSeq =>
    let state := ack.stateOf
    let state := { state with
      processedEndSeq := max state.processedEndSeq endSeq
      charsSinceReport := state.charsSinceReport + chars }
    if ackBatchChars ≤ state.charsSinceReport then Ack.flush (some state)
    else some { state with timer := true }

def processedEndSeqFor (ack : Ack) : Nat :=
  match ack with
  | some state => state.processedEndSeq
  | none => 0

/-! ## the credit of one dispatch -/

structure Credit where
  /-- what `complete` acknowledges -/
  endSeq : Option Nat
  chars : Nat
  /-- the dispatch is still on the stack -/
  isOpen : Bool
  /-- the views whose share is out; `pendingClaims` counts them -/
  claims : List Nat
  completed : Bool

structure World where
  service : OutputService
  ack : Ack
  /-- the credits of the dispatches so far -/
  credits : List Credit
  currentDeliveryCredit : Option Nat

def World.init : World := ⟨OutputService.new, none, [], none⟩

/-- what becomes of a chunk in a view -/
inductive Outcome
  /-- it is handed to the write queue -/
  | written
  | noTerminal
  | emptyRender
  | hiddenBacklog
  deriving DecidableEq

namespace World

def settle (w : World) (i : Nat) : World :=
  match w.credits[i]? with
  | none => w
  | some credit =>
    if credit.completed || credit.isOpen || !credit.claims.isEmpty then w
    else
      { w with
        credits := w.credits.set i { credit with completed := true }
        ack := noteOutputConsumed w.ack credit.endSeq credit.chars }

/-- the result is the credit of which the view has a share now -/
def takeCurrentTerminalDeliveryCredit (w : World) (view : Nat) : World × Option Nat :=
  match w.currentDeliveryCredit with
  | none => (w, none)
  | some i =>
    match w.credits[i]? with
    | none => (w, none)
    | some credit =>
      if !credit.isOpen then (w, none)
      else ({ w with credits := w.credits.set i { credit with claims := view :: credit.claims } },
        some i)

/-- the function that `takeCurrentTerminalDeliveryCredit` returned; it acts once -/
def releaseCredit (w : World) (i view : Nat) : World :=
  match w.credits[i]? with
  | none => w
  | some credit =>
    if view ∈ credit.claims then
      { w with
        credits := w.credits.set i { credit with claims := credit.claims.filter (· ≠ view) }
      }.settle i
    else w

/-- the credit side of `createTerminalOutputHandler` -/
def outputHandler (w : World) (outcome : Outcome) (view : Nat) : World :=
  match w.takeCurrentTerminalDeliveryCredit view with
  | (w, none) => w
  | (w, some i) =>
    match outcome with
    | .written => w
    | .noTerminal => w.releaseCredit i view
    | .emptyRender => w.releaseCredit i view
    | .hiddenBacklog => w.releaseCredit i view

/-- the callbacks of `calls`, one after the other -/
def invoke (w : World) (outcome : Nat → Outcome) (calls : List Callback) : World :=
  calls.foldl
    (fun w call => match call with
      | .output view _ => w.outputHandler (outcome view) view
      | .desync _ => w)
    w

def deliverTerminalDataWithDeferredCredit (w : World) (chunk : PendingChunk)
    (deliver : World → World) : World :=
  let i := w.credits.length
  let previous := w.currentDeliveryCredit
  let w := deliver { w with
    credits := w.credits ++ [⟨chunk.endSeq, chunk.data.length, true, [], false⟩]
    currentDeliveryCredit := some i }
  { w with
    currentDeliveryCredit := previous
    credits := w.credits.modify i fun credit => { credit with isOpen := false } }.settle i

end World

inductive Action
  | output (chunk : PendingChunk) (outcome : Nat → Outcome)
  /-- a view's write of the chunk of a dispatch completed or was rejected -/
  | writeDone (dispatch view : Nat)
  | ackTimer
  | desync
  | registerOutput (view : Nat) (outcome : Nat → Outcome)
  | registerDesync (view : Nat)
  | unsubscribeOutput (view : Nat)
  | unsubscribeDesync (view : Nat)
  | detachOutput

namespace World

def output (w : World) (chunk : PendingChunk) (outcome : Nat → Outcome) : World :=
  let (service, calls) := w.service.onOutput chunk
  if w.service.outputCallbacks.isEmpty then { w with service := service }.invoke outcome calls
  else { w with service := service }.deliverTerminalDataWithDeferredCredit chunk
    fun w => w.invoke outcome calls

/-- the pending chunks go to the first subscriber outside of any dispatch -/
def registerOutput (w : World) (view : Nat) (outcome : Nat → Outcome) : World :=
  let (service, calls) := w.service.registerOutput view
  { w with service := service }.invoke outcome calls

def step (w : World) : Action → World
  | .output chunk outcome => w.output chunk outcome
  | .writeDone dispatch view => w.releaseCredit dispatch view
  | .ackTimer => { w with ack := w.ack.flush }
  | .desync => { w with service := w.service.onDesync.1 }
  | .registerOutput view outcome => w.registerOutput view outcome
  | .registerDesync view => { w with service := (w.service.registerDesync view).1 }
  | .unsubscribeOutput view => { w with service := w.service.unsubscribeOutput view }
  | .unsubscribeDesync view => { w with service := w.service.unsubscribeDesync view }
  | .detachOutput => { w with service := w.service.detachOutput }

end World

def endSeq? : Action → Option Nat
  | .output chunk _ => chunk.endSeq
  | _ => none

def received (as : List Action) : List Nat := as.filterMap endSeq?

def largestReceived (as : List Action) : Nat := (received as).foldl max 0

/-- every share of a credit has been given back: no chunk is still on its way through a view -/
def Settled (w : World) : Prop := ∀ credit ∈ w.credits, credit.claims = []

instance (w : World) : Decidable (Settled w) :=
  inferInstanceAs (Decidable (∀ credit ∈ w.credits, credit.claims = []))

/-- an output event that carries a position; position `0` ends no chunk -/
def carriesSeq (a : Action) : Bool := (endSeq? a).any (0 < ·)

/-! ## what the operations do to the credits -/

theorem processed_flush (ack : Ack) : processedEndSeqFor ack.flush = processedEndSeqFor ack := by
  cases ack with
  | none => rfl
  | some => rfl

theorem processed_noteOutputConsumed (ack : Ack) (endSeq : Option Nat) (chars : Nat) :
    processedEndSeqFor (noteOutputConsumed ack endSeq chars)
      = max (processedEndSeqFor ack) (endSeq.getD 0) := by
  have hstate : ack.stateOf.processedEndSeq = processedEndSeqFor ack := by
    cases ack with
    | none => rfl
    | some => rfl
  cases endSeq with
  | none => exact (Nat.max_zero _).symm
  | some endSeq =>
    unfold noteOutputConsumed
    dsimp only
    split
    · rw [processed_flush]
      exact congrArg (max · endSeq) hstate
    · exact congrArg (max · endSeq) hstate

theorem map_set_endSeq {credits : List Credit} {i : Nat} {c c' : Credit}
    (hi : credits[i]? = some c) (hs : c'.endSeq = c.endSeq) :
    (credits.set i c').map Credit.endSeq = credits.map Credit.endSeq := by
  obtain ⟨hlt, rfl⟩ := List.getElem?_eq_some_iff.mp hi
  refine ext_getElem (by simp) fun j hj hj' => ?_
  rw [getElem_map, getElem_map, getElem_set]
  split
  · next hij =>
    subst hij
    exact hs
  · rfl

structure CreditInv (seqs : List Nat) (w : World) : Prop where
  idle : w.currentDeliveryCredit = none
  closed : ∀ c ∈ w.credits, c.isOpen = false
  settled : ∀ c ∈ w.credits, c.completed = true ↔ c.claims = []
  sent : ∀ c ∈ w.credits, ∀ s, c.endSeq = some s → s ∈ seqs
  counted : ∀ c ∈ w.credits, c.completed = true → c.endSeq.getD 0 ≤ processedEndSeqFor w.ack
  justified : processedEndSeqFor w.ack = 0 ∨
    ∃ c ∈ w.credits, c.completed = true ∧ c.endSeq = some (processedEndSeqFor w.ack)

def ackAfter (ack : Ack) (c : Credit) : Ack :=
  if c.completed then noteOutputConsumed ack c.endSeq c.chars else ack

theorem processed_ackAfter_ge (ack : Ack) (c : Credit) :
    processedEndSeqFor ack ≤ processedEndSeqFor (ackAfter ack c) := by
  unfold ackAfter
  split
  · rw [processed_noteOutputConsumed]
    exact Nat.le_max_left _ _
  · exact Nat.le_refl _

namespace CreditInv

variable {seqs : List Nat}

theorem extend (h : CreditInv seqs w) {credits : List Credit} {c' : Credit}
    {service : OutputService} {seqs' : List Nat} (hseqs : ∀ s ∈ seqs, s ∈ seqs')
    (hc' : c' ∈ credits) (hold : ∀ c ∈ credits, c = c' ∨ c ∈ w.credits)
    (hkept : ∀ c ∈ w.credits, c.completed = true → c ∈ credits)
    (hclosed : c'.isOpen = false) (hsettled : c'.completed = true ↔ c'.claims = [])
    (hsent : ∀ s, c'.endSeq = some s → s ∈ seqs') :
    CreditInv seqs' ⟨service, ackAfter w.ack c', credits, none⟩ := by
  refine ⟨rfl, fun c hc => ?_, fun c hc => ?_, fun c hc s hs => ?_, fun c hc hd => ?_, ?_⟩
  · rcases hold c hc with rfl | hc
    · exact hclosed
    · exact h.closed c hc
  · rcases hold c hc with rfl | hc
    · exact hsettled
    · exact h.settled c hc
  · rcases hold c hc with rfl | hc
    · exact hsent s hs
    · exact hseqs s (h.sent c hc s hs)
  · rcases hold c hc with rfl | hc
    · show c.endSeq.getD 0 ≤ processedEndSeqFor (ackAfter w.ack c)
      rw [ackAfter, if_pos hd, processed_noteOutputConsumed]
      exact Nat.le_max_right _ _
    · exact Nat.le_trans (h.counted c hc hd) (processed_ackAfter_ge w.ack c')
  · have hjust : processedEndSeqFor w.ack = 0 ∨ ∃ c ∈ credits, c.completed = true ∧
        c.endSeq = some (processedEndSeqFor w.ack) := by
      rcases h.justified with h0 | ⟨c, hc, hd, hs⟩
      · exact .inl h0
      · exact .inr ⟨c, hkept c hc hd, hd, hs⟩
    show processedEndSeqFor (ackAfter w.ack c') = 0 ∨ _
    unfold ackAfter
    split
    · next hd =>
      rw [processed_noteOutputConsumed]
      rcases Nat.le_total (c'.endSeq.getD 0) (processedEndSeqFor w.ack) with hle | hle
      · rw [Nat.max_eq_left hle]
        exact hjust
      rw [Nat.max_eq_right hle]
      cases hs : c'.endSeq with
      | none => exact .inl rfl
      | some => exact .inr ⟨c', hc', hd, hs⟩
    · exact hjust

theorem releaseCredit (h : CreditInv seqs w) (i view : Nat) :
    CreditInv seqs (w.releaseCredit i view) := by
  unfold World.releaseCredit
  split
  · exact h
  next c hi =>
  have hc := mem_of_getElem? hi
  split
  · next hv =>
    have hopen : c.completed = false := by
      cases hd : c.completed with
      | false => rfl
      | true =>
        rw [(h.settled c hc).mp hd] at hv
        cases hv
    have hi' : (w.credits.set i { c with claims := c.claims.filter (· ≠ view) })[i]?
        = some { c with claims := c.claims.filter (· ≠ view) } :=
      List.getElem?_set_self (List.getElem?_eq_some_iff.mp hi).1
    -- the credit at place `i` was not settled, so no settled one is lost
    have hstep : ∀ c' : Credit, c'.isOpen = false → (c'.completed = true ↔ c'.claims = []) →
        c'.endSeq = c.endSeq → CreditInv seqs
          ⟨w.service, ackAfter w.ack c', w.credits.set i c', none⟩ := by
      intro c' h1 h2 h3
      have hlt := (List.getElem?_eq_some_iff.mp hi).1
      refine h.extend (fun s hs => hs) (mem_of_getElem? (getElem?_set_self hlt)) ?_ ?_
        h1 h2 (fun s hs => h.sent c hc s (h3 ▸ hs))
      · intro d hd
        exact (mem_or_eq_of_mem_set hd).symm
      intro d hd hdc
      obtain ⟨j, hj⟩ := mem_iff_getElem?.mp hd
      refine mem_of_getElem? (i := j) ?_
      rw [getElem?_set_ne, hj]
      rintro rfl
      rw [hi] at hj
      rw [Option.some.inj hj, hdc] at hopen
      cases hopen
    have hclosed := h.closed c hc
    unfold World.settle
    rw [hi']
    dsimp only
    rw [hopen, hclosed, h.idle]
    split
    · next hs =>
      have hclaims : c.claims.filter (· ≠ view) ≠ [] := by simpa using hs
      have hinv := hstep { c with claims := c.claims.filter (· ≠ view) } hclosed
        (iff_of_false (by simp [hopen]) hclaims) rfl
      rwa [ackAfter, if_neg (by simp [hopen]), hopen, hclosed] at hinv
    next hs =>
    have hclaims : c.claims.filter (· ≠ view) = [] := by simpa using hs
    have hinv := hstep
      { c with claims := c.claims.filter (· ≠ view), completed := true } hclosed
      (iff_of_true rfl hclaims) rfl
    rw [set_set]
    rw [ackAfter, if_pos rfl, hclosed] at hinv
    exact hinv
  · exact h

end CreditInv

/-! ## what a dispatch leaves behind -/

structure Dispatching (w₀ : World) (chunk : PendingChunk) (w : World) : Prop where
  service : w.service = w₀.service
  ack : w.ack = w₀.ack
  current : w.currentDeliveryCredit = some w₀.credits.length
  credits : ∃ claims,
    w.credits = w₀.credits ++ [⟨chunk.endSeq, chunk.data.length, true, claims, false⟩]

theorem set_last (credits : List Credit) (c c' : Credit) :
    (credits ++ [c]).set credits.length c' = credits ++ [c'] := by
  simp

theorem modify_last (credits : List Credit) (c : Credit) (f : Credit → Credit) :
    (credits ++ [c]).modify credits.length f = credits ++ [f c] := by
  induction credits with
  | nil => rfl
  | cons d credits ih => exact congrArg (d :: ·) ih

namespace Dispatching

variable {w₀ : World} {chunk : PendingChunk}

theorem outputHandler (h : Dispatching w₀ chunk w) (outcome : Outcome) (view : Nat) :
    Dispatching w₀ chunk (w.outputHandler outcome view) := by
  obtain ⟨claims, hcredits⟩ := h.credits
  have hlast : ∀ c : Credit, (w₀.credits ++ [c])[w₀.credits.length]? = some c :=
    fun c => getElem?_concat_length
  have htaken : w.takeCurrentTerminalDeliveryCredit view
      = ({ w with
          credits := w₀.credits
            ++ [⟨chunk.endSeq, chunk.data.length, true, view :: claims, false⟩] },
        some w₀.credits.length) := by
    unfold World.takeCurrentTerminalDeliveryCredit
    rw [h.current, hcredits]
    dsimp only
    rw [hlast]
    simp
  have hreleased : Dispatching w₀ chunk (World.releaseCredit { w with
      credits := w₀.credits ++ [⟨chunk.endSeq, chunk.data.length, true, view :: claims, false⟩] }
      w₀.credits.length view) := by
    unfold World.releaseCredit World.settle
    dsimp only
    rw [hlast]
    dsimp only
    rw [if_pos mem_cons_self, set_last, hlast]
    -- the credit is open: nothing is acknowledged yet
    exact ⟨h.service, h.ack, h.current, _, rfl⟩
  unfold World.outputHandler
  rw [htaken]
  cases outcome with
  | written => exact ⟨h.service, h.ack, h.current, _, rfl⟩
  | noTerminal => exact hreleased
  | emptyRender => exact hreleased
  | hiddenBacklog => exact hreleased

theorem invoke (h : Dispatching w₀ chunk w) (outcome : Nat → Outcome) (calls : List Callback) :
    Dispatching w₀ chunk (w.invoke outcome calls) := by
  induction calls generalizing w with
  | nil => exact h
  | cons call calls ih =>
    cases call with
    | output view => exact ih (h.outputHandler (outcome view) view)
    | desync => exact ih h

end Dispatching

theorem deliver_spec (hidle : w.currentDeliveryCredit = none) (chunk : PendingChunk)
    (outcome : Nat → Outcome) (calls : List Callback) :
    ∃ c : Credit, c.endSeq = chunk.endSeq ∧ c.isOpen = false ∧
      (c.completed = true ↔ c.claims = []) ∧
      w.deliverTerminalDataWithDeferredCredit chunk (fun w => w.invoke outcome calls)
        = ⟨w.service, ackAfter w.ack c, w.credits ++ [c], none⟩ := by
  have hstart : Dispatching w chunk
      ⟨w.service, w.ack, w.credits ++ [⟨chunk.endSeq, chunk.data.length, true, [], false⟩],
        some w.credits.length⟩ := ⟨rfl, rfl, rfl, [], rfl⟩
  have hend := hstart.invoke outcome calls
  obtain ⟨claims, hcredits⟩ := hend.credits
  refine ⟨⟨chunk.endSeq, chunk.data.length, false, claims, claims.isEmpty⟩, rfl, rfl,
    isEmpty_iff, ?_⟩
  unfold World.deliverTerminalDataWithDeferredCredit
  dsimp only
  rw [hidle, hcredits, modify_last, hend.service, hend.ack]
  unfold World.settle
  dsimp only
  rw [getElem?_concat_length]
  dsimp only
  rw [set_last]
  cases claims with
  | nil => rfl
  | cons => rfl

theorem invoke_idle (hidle : w.currentDeliveryCredit = none) (outcome : Nat → Outcome)
    (calls : List Callback) : w.invoke outcome calls = w := by
  induction calls with
  | nil => rfl
  | cons call calls ih =>
    cases call with
    | output view =>
      have hsame : w.outputHandler (outcome view) view = w := by
        unfold World.outputHandler World.takeCurrentTerminalDeliveryCredit
        rw [hidle]
      show (w.outputHandler (outcome view) view).invoke outcome calls = w
      rw [hsame, ih]
    | desync => exact ih

theorem registerOutput_idle (hidle : w.currentDeliveryCredit = none) (view : Nat)
    (outcome : Nat → Outcome) :
    w.registerOutput view outcome = { w with service := (w.service.registerOutput view).1 } :=
  invoke_idle (w := { w with service := (w.service.registerOutput view).1 }) hidle outcome _

def addedBy (w : World) : Action → List (Option Nat)
  | .output chunk _ => if w.service.outputCallbacks.isEmpty then [] else [chunk.endSeq]
  | _ => []

theorem releaseCredit_endSeqs (w : World) (i view : Nat) :
    (w.releaseCredit i view).credits.map Credit.endSeq = w.credits.map Credit.endSeq := by
  unfold World.releaseCredit
  split
  · rfl
  next c hi =>
  split
  · have hi' : (w.credits.set i { c with claims := c.claims.filter (· ≠ view) })[i]?
        = some { c with claims := c.claims.filter (· ≠ view) } :=
      List.getElem?_set_self (List.getElem?_eq_some_iff.mp hi).1
    unfold World.settle
    rw [hi']
    dsimp only
    split
    · exact map_set_endSeq hi rfl
    · rw [set_set]
      exact map_set_endSeq hi rfl
  · rfl

theorem some_mem_addedBy {a : Action} {s : Nat} :
    some s ∈ addedBy w a ↔ endSeq? a = some s ∧ w.service.outputCallbacks ≠ [] := by
  cases a with
  | output chunk =>
    show some s ∈ (if w.service.outputCallbacks.isEmpty then [] else [chunk.endSeq]) ↔
      chunk.endSeq = some s ∧ _
    cases hs : w.service.outputCallbacks with
    | nil => simp
    | cons => simp [eq_comm]
  | _ => simp [addedBy, endSeq?]

theorem output_cases (hidle : w.currentDeliveryCredit = none) (chunk : PendingChunk)
    (outcome : Nat → Outcome) :
    (w.service.outputCallbacks.isEmpty = true ∧
      w.output chunk outcome = { w with service := (w.service.onOutput chunk).1 }) ∨
    (w.service.outputCallbacks.isEmpty = false ∧ ∃ c : Credit, c.endSeq = chunk.endSeq ∧
      c.isOpen = false ∧ (c.completed = true ↔ c.claims = []) ∧ w.output chunk outcome
        = ⟨(w.service.onOutput chunk).1, ackAfter w.ack c, w.credits ++ [c], none⟩) := by
  cases he : w.service.outputCallbacks.isEmpty with
  | true =>
    refine .inl ⟨rfl, ?_⟩
    unfold World.output
    rw [he]
    exact invoke_idle (w := { w with service := (w.service.onOutput chunk).1 }) hidle _ _
  | false =>
    obtain ⟨c, h1, h2, h3, heq⟩ := deliver_spec
      (w := { w with service := (w.service.onOutput chunk).1 }) hidle chunk outcome
      (w.service.onOutput chunk).2
    refine .inr ⟨rfl, c, h1, h2, h3, ?_⟩
    unfold World.output
    rw [he]
    exact heq

theorem step_endSeqs {seqs : List Nat} (h : CreditInv seqs w) (a : Action) :
    (w.step a).credits.map Credit.endSeq = w.credits.map Credit.endSeq ++ addedBy w a := by
  cases a with
  | output chunk outcome =>
    show (w.output chunk outcome).credits.map _ = _ ++ if _ then _ else _
    rcases output_cases h.idle chunk outcome with ⟨he, heq⟩ | ⟨he, c, hs, _, _, heq⟩
    · rw [heq, he]
      exact (append_nil _).symm
    · rw [heq, he, map_append, map_singleton, hs]
      rfl
  | writeDone dispatch view =>
    show (w.releaseCredit dispatch view).credits.map _ = _ ++ []
    rw [append_nil, releaseCredit_endSeqs]
  | registerOutput view outcome =>
    show (w.registerOutput view outcome).credits.map _ = _ ++ []
    rw [append_nil, registerOutput_idle h.idle]
  | _ => exact (append_nil _).symm

theorem CreditInv.step {seqs : List Nat} (h : CreditInv seqs w) (a : Action) :
    CreditInv (seqs ++ (endSeq? a).toList) (w.step a) := by
  have hsub : ∀ s ∈ seqs, s ∈ seqs ++ (endSeq? a).toList :=
    fun s hs => mem_append_left _ hs
  have hsame : ∀ (service : OutputService) (ack : Ack),
      processedEndSeqFor ack = processedEndSeqFor w.ack →
      CreditInv (seqs ++ (endSeq? a).toList) { w with service := service, ack := ack } := by
    intro service ack hack
    refine ⟨h.idle, h.closed, h.settled, fun c hc s hs => hsub s (h.sent c hc s hs), ?_, ?_⟩
    · show ∀ c ∈ w.credits, _ → _ ≤ processedEndSeqFor ack
      rw [hack]
      exact h.counted
    · show processedEndSeqFor ack = 0 ∨ ∃ c ∈ w.credits, _ ∧ _ = some (processedEndSeqFor ack)
      rw [hack]
      exact h.justified
  cases a with
  | output chunk outcome =>
    show CreditInv _ (w.output chunk outcome)
    rcases output_cases h.idle chunk outcome with ⟨_, heq⟩ | ⟨_, c, hs, h2, h3, heq⟩
    · rw [heq]
      exact hsame _ w.ack rfl
    rw [heq]
    refine h.extend hsub (by simp) (fun d hd => ?_) (fun d hd _ => mem_append_left _ hd)
      h2 h3 fun s hcs => ?_
    · exact (mem_append.mp hd).elim .inr fun hd => .inl (mem_singleton.mp hd)
    · rw [hs] at hcs
      simp [endSeq?, hcs]
  | writeDone dispatch view =>
    show CreditInv (seqs ++ []) _
    rw [append_nil]
    exact h.releaseCredit dispatch view
  | ackTimer => exact hsame w.service _ (processed_flush w.ack)
  | registerOutput view outcome =>
    show CreditInv _ (w.registerOutput view outcome)
    rw [registerOutput_idle h.idle]
    exact hsame _ w.ack rfl
  | desync | registerDesync | unsubscribeOutput | unsubscribeDesync | detachOutput =>
    exact hsame _ w.ack rfl

/-! ## the result -/

theorem received_snoc (as : List Action) (a : Action) :
    received (as ++ [a]) = received as ++ (endSeq? a).toList := by
  unfold received
  rw [filterMap_append]
  cases h : endSeq? a <;> simp [h]

theorem largestReceived_snoc (as : List Action) (a : Action) :
    largestReceived (as ++ [a]) = max (largestReceived as) ((endSeq? a).getD 0) := by
  unfold largestReceived
  rw [received_snoc, foldl_append]
  cases endSeq? a with
  | none => exact (Nat.max_zero _).symm
  | some => rfl

theorem le_largestReceived {as : List Action} {s : Nat} (hs : s ∈ received as) :
    s ≤ largestReceived as := by
  induction as using history_induct with
  | hnil => exact absurd hs (by simp [received])
  | hstep as a ih =>
    rw [received_snoc] at hs
    rw [largestReceived_snoc]
    rcases mem_append.mp hs with hs | hs
    · exact Nat.le_trans (ih hs) (Nat.le_max_left _ _)
    · rw [Option.mem_toList.mp hs]
      exact Nat.le_max_right _ _

theorem largestReceived_le {as : List Action} {n : Nat} (h : ∀ s ∈ received as, s ≤ n) :
    largestReceived as ≤ n := by
  induction as using history_induct with
  | hnil => exact Nat.zero_le n
  | hstep as a ih =>
    rw [received_snoc] at h
    rw [largestReceived_snoc]
    refine Nat.max_le.mpr ⟨ih fun s hs => h s (mem_append_left _ hs), ?_⟩
    cases hs : endSeq? a with
    | none => exact Nat.zero_le n
    | some s => exact h s (mem_append_right _ (by simp [hs]))

theorem creditInv_run (as : List Action) :
    CreditInv (received as) (run World.step World.init as) := by
  induction as using history_induct with
  | hnil =>
    have hnone : ∀ c, c ∉ (run World.step World.init []).credits := by simp [run, World.init]
    exact ⟨rfl, fun c hc => absurd hc (hnone c), fun c hc => absurd hc (hnone c),
      fun c hc => absurd hc (hnone c), fun c hc => absurd hc (hnone c), .inl rfl⟩
  | hstep as a ih =>
    rw [run_snoc, received_snoc]
    exact ih.step a

theorem lastMet_iff_credit (as : List Action) (hinc : (received as).Pairwise (· < ·)) :
    LastMet World.step carriesSeq (fun w => w.service.outputCallbacks ≠ []) World.init as ↔
      largestReceived as = 0 ∨
        some (largestReceived as) ∈ (run World.step World.init as).credits.map Credit.endSeq := by
  induction as using history_induct with
  | hnil => exact iff_of_true lastMet_nil (.inl rfl)
  | hstep as a ih =>
    rw [received_snoc, pairwise_append] at hinc
    have hadded := step_endSeqs (creditInv_run as) a
    rw [run_snoc, largestReceived_snoc, hadded]
    cases hc : carriesSeq a with
    | false =>
      have hz : (endSeq? a).getD 0 = 0 := by
        cases hs : endSeq? a with
        | none => rfl
        | some => simpa [carriesSeq, hs] using hc
      rw [lastMet_snoc_of_not hc, ih hinc.1, hz, Nat.max_zero, mem_append, ← or_assoc]
      refine (or_iff_left_of_imp fun hm => .inl ?_).symm
      -- a position that is added now is position 0
      rw [(some_mem_addedBy.mp hm).1] at hz
      exact hz
    | true =>
      obtain ⟨s, hs, hpos⟩ : ∃ s, endSeq? a = some s ∧ 0 < s := by
        simpa [carriesSeq, Option.any_eq_true] using hc
      have hlt : ∀ t ∈ received as, t < s := fun t ht => hinc.2.2 t ht s (by simp [hs])
      have hmax : max (largestReceived as) ((endSeq? a).getD 0) = s := by
        rw [hs]
        exact Nat.max_eq_right (largestReceived_le fun t ht => Nat.le_of_lt (hlt t ht))
      rw [lastMet_snoc_of_sel hc, hmax, mem_append, some_mem_addedBy]
      constructor
      · exact fun h => .inr (.inr ⟨hs, h⟩)
      rintro (h0 | hold | hnew)
      · exact absurd h0 (Nat.ne_of_gt hpos)
      · obtain ⟨c, hcm, hcs⟩ := mem_map.mp hold
        exact absurd (hlt s ((creditInv_run as).sent c hcm s hcs)) (Nat.lt_irrefl s)
      · exact hnew.2

/-- **Once all shares are back**, the acknowledged position is the largest received exactly if the
last chunk that carried a position found an output subscriber. -/
theorem processed_eq_largest_iff (as : List Action) (hinc : (received as).Pairwise (· < ·))
    (hsettled : Settled (run World.step World.init as)) :
    processedEndSeqFor (run World.step World.init as).ack = largestReceived as ↔
      LastMet World.step carriesSeq (fun w => w.service.outputCallbacks ≠ []) World.init as := by
  have hinv := creditInv_run as
  have hle : processedEndSeqFor (run World.step World.init as).ack ≤ largestReceived as := by
    rcases hinv.justified with h0 | ⟨c, hc, _, hs⟩
    · rw [h0]
      exact Nat.zero_le _
    · exact le_largestReceived (hinv.sent c hc _ hs)
  rw [lastMet_iff_credit as hinc]
  constructor
  · intro h
    rcases hinv.justified with h0 | ⟨c, hc, _, hs⟩
    · exact .inl (h.symm.trans h0)
    · exact .inr (mem_map.mpr ⟨c, hc, h ▸ hs⟩)
  rintro (h0 | hm)
  · rw [h0] at hle ⊢
    exact Nat.le_zero.mp hle
  obtain ⟨c, hc, hs⟩ := mem_map.mp hm
  have hdone := hinv.counted c hc ((hinv.settled c hc).mpr (hsettled c hc))
  rw [hs] at hdone
  exact Nat.le_antisymm hle hdone

theorem processed_eq_largest_served :
    processedEndSeqFor (run World.step World.init
        [.registerOutput 0 fun _ => .written, .output ⟨[104], some 1⟩ fun _ => .written,
          .writeDone 0 0]).ack
        = largestReceived [.registerOutput 0 fun _ => .written,
            .output ⟨[104], some 1⟩ fun _ => .written, .writeDone 0 0] ↔
      LastMet World.step carriesSeq (fun w => w.service.outputCallbacks ≠ []) World.init
        [.registerOutput 0 fun _ => .written, .output ⟨[104], some 1⟩ fun _ => .written,
          .writeDone 0 0] :=
  processed_eq_largest_iff _ (by decide) (by decide)

def earlyOutputRun : List Action :=
  [.output ⟨[104, 105], some 2⟩ fun _ => .written, .registerOutput 0 fun _ => .written]

theorem earlyOutput_unacknowledged :
    (received earlyOutputRun).Pairwise (· < ·) ∧
      Settled (run World.step World.init earlyOutputRun) ∧
      (run World.step World.init earlyOutputRun).service.buffer = none ∧
      processedEndSeqFor (run World.step World.init earlyOutputRun).ack
        ≠ largestReceived earlyOutputRun :=
  ⟨by decide, by decide, by decide, by decide⟩

end DeliveryCredit

end CcPanes

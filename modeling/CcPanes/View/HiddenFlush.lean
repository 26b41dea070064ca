import CcPanes.Foundation.JsString
import CcPanes.Foundation.Run
import CcPanes.View.HiddenWriteBuffer

/-!
# Output order through the hidden backlog

A chunk of a visible view is written at once, behind the backlog if there is one.  A flush takes the
backlog at once but writes it only after the write of the flush before it has completed.
-/

namespace CcPanes
open List Option

/-! ## flushes -/

inductive FlushStage
  | waiting
  | writing
  | done
  deriving DecidableEq

/-- a call of `flushHiddenWrites` that has drained `pending` -/
structure FlushWrite (α : Type) where
  pending : List α
  /-- the flush whose write it awaits -/
  previousWrite : Option Nat
  stage : FlushStage

structure FlushChain (α : Type) where
  flushes : List (FlushWrite α)
  writeInFlight : Option Nat

namespace FlushChain

section
variable {α : Type} {c : FlushChain α}

def new : FlushChain α := ⟨[], none⟩

def add (c : FlushChain α) (pending : List α) : FlushChain α where
  flushes := c.flushes ++ [⟨pending, c.writeInFlight, .waiting⟩]
  writeInFlight := some c.flushes.length

def isDone (c : FlushChain α) (k : Nat) : Bool :=
  match c.flushes[k]? with
  | some f => f.stage = .done
  | none => false

/-- flush `k` goes on to write its text, if what it awaits has completed -/
def start (c : FlushChain α) (k : Nat) : FlushChain α × Option (List α) :=
  match c.flushes[k]? with
  | none => (c, none)
  | some f =>
    if f.stage = .waiting ∧ f.previousWrite.all c.isDone = true then
      ({ c with flushes := c.flushes.set k { f with stage := .writing } }, some f.pending)
    else (c, none)

/-- the write of flush `k` completes or fails -/
def finish (c : FlushChain α) (k : Nat) : FlushChain α :=
  match c.flushes[k]? with
  | none => c
  | some f =>
    if f.stage = .writing then
      { flushes := c.flushes.set k { f with stage := .done }
        writeInFlight := if c.writeInFlight = some k then none else c.writeInFlight }
    else c

def waitingText (c : FlushChain α) : List α :=
  ((c.flushes.filter fun f => f.stage = .waiting).map FlushWrite.pending).flatten

structure Ordered (c : FlushChain α) : Prop where
  order : ∀ (i j : Nat) (f g : FlushWrite α), i < j → c.flushes[i]? = some f →
    c.flushes[j]? = some g → g.stage ≠ .waiting → f.stage = .done
  first : ∀ (k : Nat) (f : FlushWrite α), c.flushes[k]? = some f → f.previousWrite = none →
    ∀ i < k, c.isDone i = true
  link : ∀ (k : Nat) (f : FlushWrite α) (p : Nat), c.flushes[k]? = some f →
    f.previousWrite = some p → p + 1 = k
  idle : c.writeInFlight = none → ∀ i < c.flushes.length, c.isDone i = true
  last : ∀ p, c.writeInFlight = some p → p + 1 = c.flushes.length

theorem ordered_new : Ordered (new : FlushChain α) where
  order _ _ _ _ _ h := absurd h (by simp [new])
  first _ _ h := absurd h (by simp [new])
  link _ _ _ h := absurd h (by simp [new])
  idle _ i h := absurd h (by simp [new])
  last _ h := absurd h (by simp [new])

theorem isDone_iff {k : Nat} :
    c.isDone k = true ↔ ∃ f, c.flushes[k]? = some f ∧ f.stage = .done := by
  unfold isDone
  cases c.flushes[k]? with
  | none => simp
  | some => simp

theorem waitingText_add (c : FlushChain α) (pending : List α) :
    (c.add pending).waitingText = c.waitingText ++ pending := by
  simp [waitingText, add, filter_append]

theorem Ordered.add (h : c.Ordered) (pending : List α) : (c.add pending).Ordered := by
  have hold : ∀ {k f}, (c.add pending).flushes[k]? = some f →
      c.flushes[k]? = some f ∨
        (k = c.flushes.length ∧ f = ⟨pending, c.writeInFlight, .waiting⟩) := by
    intro k f hf
    rcases Nat.lt_trichotomy k c.flushes.length with hk | hk | hk
    · exact .inl ((getElem?_append_left hk).symm.trans hf)
    · subst hk
      exact .inr ⟨rfl, some.inj (hf.symm.trans getElem?_concat_length)⟩
    have hnone : (c.add pending).flushes[k]? = none := by
      refine getElem?_eq_none ?_
      rw [FlushChain.add, length_append, length_singleton]
      exact hk
    rw [hnone] at hf
    cases hf
  have hdone : ∀ {k}, c.isDone k = true → (c.add pending).isDone k = true := by
    intro k hk
    obtain ⟨f, hf, hs⟩ := isDone_iff.mp hk
    refine isDone_iff.mpr ⟨f, ?_, hs⟩
    rw [FlushChain.add, List.getElem?_append_left (List.getElem?_eq_some_iff.mp hf).1, hf]
  refine ⟨fun i j f g hij hf hg hs => ?_, fun k f hf hp i hi => ?_, fun k f p hf hp => ?_,
    fun hidle => absurd hidle (by simp [FlushChain.add]), fun p hp => ?_⟩
  · rcases hold hg with hg | ⟨_, rfl⟩
    · rcases hold hf with hf | ⟨rfl, _⟩
      · exact h.order i j f g hij hf hg hs
      · exact absurd (List.getElem?_eq_some_iff.mp hg).1 (by omega)
    · exact absurd rfl hs
  · rcases hold hf with hf | ⟨rfl, rfl⟩
    · exact hdone (h.first k f hf hp i hi)
    · exact hdone (h.idle hp i hi)
  · rcases hold hf with hf | ⟨rfl, rfl⟩
    · exact h.link k f p hf hp
    · exact h.last p hp
  · obtain rfl : c.flushes.length = p := some.inj hp
    simp [FlushChain.add]

theorem Ordered.setStage (h : c.Ordered) {k : Nat} {f : FlushWrite α}
    {stage : FlushStage} {inFlight : Option Nat} (hk : c.flushes[k]? = some f)
    (hf : f.stage ≠ .done) (hbefore : ∀ i < k, c.isDone i = true)
    (hafter : stage = .done ∨ f.stage = .waiting)
    (hflight : inFlight = c.writeInFlight ∨
      (inFlight = none ∧ stage = .done ∧ k + 1 = c.flushes.length)) :
    Ordered ⟨c.flushes.set k { f with stage := stage }, inFlight⟩ := by
  have hlt := (List.getElem?_eq_some_iff.mp hk).1
  have hself : (c.flushes.set k { f with stage := stage })[k]? = some { f with stage := stage } :=
    getElem?_set_self hlt
  have hother : ∀ {j}, j ≠ k → (c.flushes.set k { f with stage := stage })[j]? = c.flushes[j]? :=
    fun hj => getElem?_set_ne (Ne.symm hj)
  have hdone : ∀ {i}, c.isDone i = true →
      isDone ⟨c.flushes.set k { f with stage := stage }, inFlight⟩ i = true := by
    intro i hi
    obtain ⟨g, hg, hs⟩ := isDone_iff.mp hi
    refine isDone_iff.mpr ⟨g, ?_, hs⟩
    have hik : i ≠ k := by
      rintro rfl
      rw [hk] at hg
      exact hf (some.inj hg ▸ hs)
    exact (hother hik).trans hg
  constructor
  · intro i j g g' hij hg hg' hs
    by_cases hjk : j = k
    · subst hjk
      have hij' : i ≠ j := Nat.ne_of_lt hij
      obtain ⟨g'', hg'', hs''⟩ := isDone_iff.mp (hbefore i hij)
      have heq := (hother hij').symm.trans hg
      rw [hg''] at heq
      exact some.inj heq ▸ hs''
    have hg'' := (hother hjk).symm.trans hg'
    by_cases hik : i = k
    · subst hik
      have heq := hself.symm.trans hg
      cases heq
      rcases hafter with ha | ha
      · exact ha
      · have hc := h.order i j f g' hij hk hg'' hs
        rw [ha] at hc
        cases hc
    · exact h.order i j g g' hij ((hother hik).symm.trans hg) hg'' hs
  · intro j g hg hp i hi
    by_cases hjk : j = k
    · subst hjk
      exact hdone (hbefore i hi)
    · exact hdone (h.first j g ((hother hjk).symm.trans hg) hp i hi)
  · intro j g p hg hp
    by_cases hjk : j = k
    · subst hjk
      cases hself.symm.trans hg
      exact h.link j f p hk hp
    · exact h.link j g p ((hother hjk).symm.trans hg) hp
  · intro hidle i hi
    have hi' : i < c.flushes.length := by simpa using hi
    rcases hflight with rfl | ⟨_, hstage, hlast⟩
    · exact hdone (h.idle hidle i hi')
    by_cases hik : i = k
    · subst hik
      exact isDone_iff.mpr ⟨_, hself, hstage⟩
    · exact hdone (hbefore i (by omega))
  · intro p hp
    rcases hflight with rfl | ⟨hnone, _⟩
    · simpa using h.last p hp
    · rw [hnone] at hp
      cases hp

theorem Ordered.before (h : c.Ordered) {k : Nat} {f : FlushWrite α} (hk : c.flushes[k]? = some f)
    (hf : f.stage ≠ .waiting ∨ f.previousWrite.all c.isDone = true) :
    ∀ i < k, c.isDone i = true := by
  have hdone : ∀ j g, c.flushes[j]? = some g → g.stage ≠ .waiting → ∀ i < j,
      c.isDone i = true := by
    intro j g hg hs i hij
    have hi : i < c.flushes.length := Nat.lt_trans hij (List.getElem?_eq_some_iff.mp hg).1
    exact isDone_iff.mpr ⟨_, getElem?_eq_getElem hi,
      h.order i j _ g hij (getElem?_eq_getElem hi) hg hs⟩
  rcases hf with hf | hf
  · exact hdone k f hk hf
  intro i hi
  cases hp : f.previousWrite with
  | none => exact h.first k f hk hp i hi
  | some p =>
    rw [hp] at hf
    obtain ⟨g, hg, hs⟩ := isDone_iff.mp (show c.isDone p = true from hf)
    have hpk := h.link k f p hk hp
    rcases Nat.lt_or_ge i p with hip | hip
    · exact hdone p g hg (by simp [hs]) i hip
    · obtain rfl : i = p := by omega
      exact hf

theorem Ordered.start (h : c.Ordered) (k : Nat) : (c.start k).1.Ordered := by
  unfold FlushChain.start
  split
  · exact h
  next f hk =>
  split
  · next hc =>
    exact h.setStage hk (by simp [hc.1]) (h.before hk (.inr hc.2)) (.inr hc.1) (.inl rfl)
  · exact h

theorem Ordered.finish (h : c.Ordered) (k : Nat) : (c.finish k).Ordered := by
  unfold FlushChain.finish
  split
  · exact h
  next f hk =>
  split
  · next hs =>
    refine h.setStage hk (by simp [hs]) (h.before hk (.inl (by simp [hs]))) (.inl rfl) ?_
    split
    · next hp => exact .inr ⟨rfl, rfl, h.last k hp⟩
    · exact .inl rfl
  · exact h

theorem mem_waitingText {u : α} :
    u ∈ c.waitingText ↔ ∃ f ∈ c.flushes, f.stage = .waiting ∧ u ∈ f.pending := by
  simp only [waitingText, mem_flatten, List.mem_map, mem_filter, decide_eq_true_eq]
  constructor
  · rintro ⟨_, ⟨f, ⟨hf, hs⟩, rfl⟩, hu⟩
    exact ⟨f, hf, hs, hu⟩
  · rintro ⟨f, hf, hs, hu⟩
    exact ⟨_, ⟨f, ⟨hf, hs⟩, rfl⟩, hu⟩

theorem mem_waitingText_of_start {k : Nat} {u : α}
    (hu : u ∈ (c.start k).2.getD [] ++ (c.start k).1.waitingText) : u ∈ c.waitingText := by
  unfold FlushChain.start at hu
  split at hu
  · exact hu
  next f hk =>
  split at hu
  · next hs =>
    have hf : f ∈ c.flushes := mem_of_getElem? hk
    rcases mem_append.mp hu with hu | hu
    · exact mem_waitingText.mpr ⟨f, hf, hs.1, hu⟩
    obtain ⟨g, hg, hgs, hgu⟩ := mem_waitingText.mp hu
    rcases mem_or_eq_of_mem_set hg with hg | rfl
    · exact mem_waitingText.mpr ⟨g, hg, hgs, hgu⟩
    · cases hgs
  · exact hu

theorem waitingText_of_done {fs : List (FlushWrite α)} (h : ∀ f ∈ fs, f.stage ≠ .waiting) :
    fs.filter (fun f => f.stage = .waiting) = [] := by
  rw [filter_eq_nil_iff]
  intro f hf
  simpa using h f hf

theorem Ordered.start_text (h : c.Ordered) (k : Nat) :
    c.waitingText = (c.start k).2.getD [] ++ (c.start k).1.waitingText := by
  unfold FlushChain.start
  split
  · rfl
  next f hk =>
  split
  · next hc =>
    have hlt := (List.getElem?_eq_some_iff.mp hk).1
    have hsplit : c.flushes = c.flushes.take k ++ f :: c.flushes.drop (k + 1) := by
      rw [← (List.getElem?_eq_some_iff.mp hk).2, List.getElem_cons_drop, List.take_append_drop]
    have hbefore : ∀ g ∈ c.flushes.take k, g.stage ≠ .waiting := by
      intro g hg
      obtain ⟨i, hi, rfl⟩ := mem_take_iff_getElem.mp hg
      obtain ⟨g', hg', hs⟩ := isDone_iff.mp (h.before hk (.inr hc.2) i (by omega))
      rw [getElem?_eq_getElem (by omega)] at hg'
      rw [some.inj hg', hs]
      simp
    have htext : ∀ g : FlushWrite α, waitingText ⟨c.flushes.take k ++ g :: c.flushes.drop (k + 1),
        c.writeInFlight⟩ = (if g.stage = .waiting then g.pending else []) ++
          waitingText ⟨c.flushes.drop (k + 1), c.writeInFlight⟩ := by
      intro g
      unfold waitingText
      rw [filter_append, waitingText_of_done hbefore, nil_append, filter_cons]
      by_cases hg : g.stage = .waiting
      · rw [if_pos (decide_eq_true hg), if_pos hg]
        rfl
      · rw [if_neg (by simp [hg]), if_neg hg]
        rfl
    have hset : c.flushes.set k { f with stage := .writing }
        = c.flushes.take k ++ { f with stage := .writing } :: c.flushes.drop (k + 1) := by
      rw [set_eq_take_append_cons_drop, if_pos hlt]
    have hold : c.waitingText
        = f.pending ++ waitingText ⟨c.flushes.drop (k + 1), c.writeInFlight⟩ := by
      have heq := htext f
      rw [← hsplit, if_pos hc.1] at heq
      exact heq
    rw [hold, hset]
    exact congrArg (f.pending ++ ·) ((htext { f with stage := .writing }).trans (by simp)).symm
  · rfl

theorem finish_text (c : FlushChain α) (k : Nat) : (c.finish k).waitingText = c.waitingText := by
  unfold finish
  split
  · rfl
  next f hk =>
  split
  · next hs =>
    have hlt := (List.getElem?_eq_some_iff.mp hk).1
    have hsplit : c.flushes = c.flushes.take k ++ f :: c.flushes.drop (k + 1) := by
      rw [← (List.getElem?_eq_some_iff.mp hk).2, List.getElem_cons_drop, List.take_append_drop]
    unfold waitingText
    dsimp only
    rw [set_eq_take_append_cons_drop, if_pos hlt]
    conv => rhs; rw [hsplit]
    simp [filter_append, hs]
  · rfl

end

end FlushChain

/-! ## a view without overflow and recovery -/

namespace HiddenFlush

open Run

/-- the view's own output, `notice` being the text of a truncation -/
structure World (α : Type) where
  visible : Bool
  buffer : HiddenWriteBuffer α
  chain : FlushChain α
  /-- the strings passed to `writeTerminalData` -/
  written : List (List α)
  /-- the rendered chunks -/
  arrived : List (List α)

inductive Action (α : Type)
  /-- a rendered chunk comes; `maxPendingChars` is the quota of the moment -/
  | chunk (maxPendingChars : Nat) (data : List α)
  | setVisible (visible : Bool)
  | flush
  | startWrite (k : Nat)
  | writeDone (k : Nat)

section
variable {α : Type}

def World.init (visible : Bool) : World α where
  visible := visible
  buffer := HiddenWriteBuffer.empty
  chain := FlushChain.new
  written := []
  arrived := []

/-- `createTerminalOutputHandler`, with a terminal and no recovery -/
def World.chunk (notice : List α) (w : World α) (maxPendingChars : Nat) (data : List α) :
    World α :=
  let arrived := w.arrived ++ [data]
  if data.isEmpty then { w with arrived := arrived }
  else
    match w.buffer.push w.visible maxPendingChars notice data with
    | (buffer, none) => { w with buffer := buffer, arrived := arrived }
    | (buffer, some writableData) =>
      { w with buffer := buffer, written := w.written ++ [writableData], arrived := arrived }

/-- `createHiddenWriteFlusher`, as long as nothing has overflowed and no recovery is in progress -/
def World.flush (notice : List α) (w : World α) : World α :=
  match w.buffer.takeAll notice with
  | (buffer, none) => { w with buffer := buffer }
  | (buffer, some pending) =>
    if pending.isEmpty then { w with buffer := buffer }
    else { w with buffer := buffer, chain := w.chain.add pending }

def World.startWrite (w : World α) (k : Nat) : World α :=
  match w.chain.start k with
  | (_, none) => w
  | (chain, some pending) => { w with chain := chain, written := w.written ++ [pending] }

def World.step (notice : List α) (w : World α) : Action α → World α
  | .chunk maxPendingChars data => w.chunk notice maxPendingChars data
  | .setVisible visible => { w with visible := visible }
  | .flush => w.flush notice
  | .startWrite k => w.startWrite k
  | .writeDone k => { w with chain := w.chain.finish k }

/-! ## the claim -/

/-- what was written, what flushes hold and what is buffered, in this order, is what arrived -/
def InOrder (w : World α) : Prop :=
  w.written.flatten ++ w.chain.waitingText ++ w.buffer.text = w.arrived.flatten

def NoOverflow (w : World α) : Action α → Prop
  | .chunk maxPendingChars data =>
    w.visible = false → w.buffer.pendingLength + data.length ≤ maxPendingChars
  | _ => True

/-- no chunk comes to a visible view while a flush waits to write what it has taken -/
def NoOvertaking (w : World α) : Action α → Prop
  | .chunk _ data => w.visible = true → data ≠ [] → w.chain.waitingText = []
  | _ => True

instance (w : World α) : DecidablePred (NoOverflow w)
  | .chunk maxPendingChars _ => inferInstanceAs (Decidable (_ → _ ≤ maxPendingChars))
  | .setVisible _ => .isTrue trivial
  | .flush => .isTrue trivial
  | .startWrite _ => .isTrue trivial
  | .writeDone _ => .isTrue trivial

instance [DecidableEq α] (w : World α) : DecidablePred (NoOvertaking w)
  | .chunk _ data => inferInstanceAs (Decidable (_ → data ≠ [] → _))
  | .setVisible _ => .isTrue trivial
  | .flush => .isTrue trivial
  | .startWrite _ => .isTrue trivial
  | .writeDone _ => .isTrue trivial

instance [DecidableEq α] (w : World α) : Decidable (InOrder w) :=
  inferInstanceAs (Decidable (_ = _))

structure FlushInv (w : World α) : Prop where
  ordered : w.chain.Ordered
  overflowed : w.buffer.overflowed = false
  inOrder : InOrder w

namespace FlushInv

variable {w : World α} {notice : List α}

theorem chunk (h : FlushInv w) {max : Nat} {data : List α} (hfit : NoOverflow w (.chunk max data))
    (hlate : NoOvertaking w (.chunk max data)) : FlushInv (w.chunk notice max data) := by
  have harrived : (w.arrived ++ [data]).flatten = w.arrived.flatten ++ data := by simp
  unfold World.chunk
  dsimp only
  split
  · next hd =>
    refine ⟨h.ordered, h.overflowed, ?_⟩
    show _ = (w.arrived ++ [data]).flatten
    rw [harrived, isEmpty_iff.mp hd, append_nil]
    exact h.inOrder
  next hd =>
  have hd' : data ≠ [] := fun he => hd (isEmpty_iff.mpr he)
  have horder := h.inOrder
  unfold InOrder at horder
  cases hv : w.visible with
  | true =>
    obtain ⟨htext, hof, hout⟩ := w.buffer.push_visible max notice hd' h.overflowed
    cases hpush : w.buffer.push true max notice data with
    | mk buffer =>
      rw [hpush] at htext hof hout
      dsimp only at htext hof hout
      subst hout
      refine ⟨h.ordered, hof, ?_⟩
      show (w.written ++ [w.buffer.text ++ data]).flatten ++ w.chain.waitingText ++ buffer.text
        = (w.arrived ++ [data]).flatten
      have hwait : w.chain.waitingText = [] := hlate hv hd'
      rw [hwait] at horder ⊢
      rw [harrived, ← horder, htext]
      simp
  | false =>
    obtain ⟨htext, hof, hout⟩ := w.buffer.push_hidden notice h.overflowed (hfit hv)
    cases hpush : w.buffer.push false max notice data with
    | mk buffer =>
      rw [hpush] at htext hof hout
      dsimp only at htext hof hout
      subst hout
      refine ⟨h.ordered, hof, ?_⟩
      show w.written.flatten ++ w.chain.waitingText ++ buffer.text = (w.arrived ++ [data]).flatten
      rw [harrived, ← horder, htext, append_assoc, append_assoc, append_assoc]

theorem flush (h : FlushInv w) : FlushInv (w.flush notice) := by
  obtain ⟨htext, hof, htaken⟩ := w.buffer.takeAll_eq notice h.overflowed
  have horder := h.inOrder
  unfold InOrder at horder
  unfold World.flush
  cases htake : w.buffer.takeAll notice with
  | mk buffer out =>
    rw [htake] at htext hof htaken
    dsimp only at htext hof htaken
    have hnone : w.buffer.text = [] → InOrder { w with buffer := buffer } := by
      intro hempty
      show w.written.flatten ++ w.chain.waitingText ++ buffer.text = w.arrived.flatten
      rw [htext, ← horder, hempty]
    cases out with
    | none => exact ⟨h.ordered, hof, hnone htaken.symm⟩
    | some pending =>
      have hpending : pending = w.buffer.text := htaken
      dsimp only
      split
      · next he => exact ⟨h.ordered, hof, hnone (hpending ▸ isEmpty_iff.mp he)⟩
      refine ⟨h.ordered.add pending, hof, ?_⟩
      show w.written.flatten ++ (w.chain.add pending).waitingText ++ buffer.text
        = w.arrived.flatten
      rw [FlushChain.waitingText_add, htext, hpending, append_nil, ← append_assoc]
      exact horder

theorem startWrite (h : FlushInv w) (k : Nat) : FlushInv (w.startWrite k) := by
  have hord := h.ordered.start k
  have htext := h.ordered.start_text k
  have horder := h.inOrder
  unfold InOrder at horder
  unfold World.startWrite
  cases hstart : w.chain.start k with
  | mk chain out =>
    rw [hstart] at hord htext
    cases out with
    | none => exact h
    | some pending =>
      refine ⟨hord, h.overflowed, ?_⟩
      show (w.written ++ [pending]).flatten ++ chain.waitingText ++ w.buffer.text
        = w.arrived.flatten
      rw [← horder, htext]
      simp

theorem step (h : FlushInv w) (a : Action α) (hfit : NoOverflow w a) (hlate : NoOvertaking w a) :
    FlushInv (w.step notice a) := by
  cases a with
  | chunk => exact h.chunk hfit hlate
  | setVisible => exact ⟨h.ordered, h.overflowed, h.inOrder⟩
  | flush => exact h.flush
  | startWrite k => exact h.startWrite k
  | writeDone k =>
    refine ⟨h.ordered.finish k, h.overflowed, ?_⟩
    show w.written.flatten ++ (w.chain.finish k).waitingText ++ w.buffer.text = w.arrived.flatten
    rw [FlushChain.finish_text]
    exact h.inOrder

theorem init (visible : Bool) : FlushInv (World.init visible : World α) where
  ordered := FlushChain.ordered_new
  overflowed := rfl
  inOrder := rfl

end FlushInv

/-- **The output stays in order** in every run without overflow in which no chunk overtakes a flush
that waits. -/
theorem order_kept (notice : List α) (visible : Bool) (as : List (Action α))
    (hfit : StepsOk (World.step notice) NoOverflow (World.init visible) as)
    (hlate : StepsOk (World.step notice) NoOvertaking (World.init visible) as) :
    Along (World.step notice) InOrder (World.init visible) as := by
  have hinv : Along (World.step notice) FlushInv (World.init visible) as :=
    along_of_inv (fun w a hw ha => hw.step a ha.1 ha.2) (FlushInv.init visible) (hfit.and hlate)
  exact hinv.mono fun w hw => hw.inOrder

/-- what was written, what flushes hold and what is buffered -/
def World.content (w : World α) : List α :=
  w.written.flatten ++ w.chain.waitingText ++ w.buffer.text

/-- nothing is lost and nothing comes twice, in whatever order it is written -/
structure Conserved (w : World α) : Prop where
  ordered : w.chain.Ordered
  overflowed : w.buffer.overflowed = false
  perm : w.content.Perm w.arrived.flatten

section
variable {w : World α} {notice : List α}

/-- nothing reads `arrived` -/
theorem step_arrived (notice : List α) (w : World α) (arrived : List (List α)) (a : Action α) :
    ∃ more, (w.step notice a).arrived = w.arrived ++ more ∧
      World.step notice { w with arrived := arrived } a =
        { w.step notice a with arrived := arrived ++ more } := by
  cases a with
  | chunk maxPendingChars data =>
    refine ⟨[data], ?_⟩
    unfold World.step World.chunk
    dsimp only
    split
    · exact ⟨rfl, rfl⟩
    · cases w.buffer.push w.visible maxPendingChars notice data with
      | mk buffer out => cases out <;> exact ⟨rfl, rfl⟩
  | setVisible | writeDone => exact ⟨[], (append_nil _).symm, by rw [append_nil]; rfl⟩
  | flush =>
    refine ⟨[], ?_⟩
    rw [append_nil, append_nil]
    unfold World.step World.flush
    dsimp only
    cases w.buffer.takeAll notice with
    | mk buffer out =>
      cases out with
      | none => exact ⟨rfl, rfl⟩
      | some pending =>
        dsimp only
        split <;> exact ⟨rfl, rfl⟩
  | startWrite k =>
    refine ⟨[], ?_⟩
    rw [append_nil, append_nil]
    unfold World.step World.startWrite
    dsimp only
    cases w.chain.start k with
    | mk chain out => cases out <;> exact ⟨rfl, rfl⟩

theorem Conserved.overtake (h : Conserved w) (max : Nat) {data : List α} (hv : w.visible = true)
    (hd : data ≠ []) : Conserved (w.step notice (.chunk max data)) := by
  obtain ⟨htext, hof, hout⟩ := w.buffer.push_visible max notice hd h.overflowed
  unfold World.step World.chunk
  dsimp only
  rw [if_neg (by simpa using hd), hv]
  cases hpush : w.buffer.push true max notice data with
  | mk buffer =>
    rw [hpush] at htext hof hout
    dsimp only at htext hof hout
    subst hout
    refine ⟨h.ordered, hof, ?_⟩
    show ((w.written ++ [w.buffer.text ++ data]).flatten ++ w.chain.waitingText ++
      buffer.text).Perm (w.arrived ++ [data]).flatten
    rw [htext, append_nil, flatten_append, flatten_append, flatten_singleton, flatten_singleton]
    have hcontent := h.perm.append_right data
    unfold World.content at hcontent
    refine Perm.trans ?_ hcontent
    rw [append_assoc, append_assoc w.written.flatten, append_assoc w.written.flatten,
      append_assoc w.chain.waitingText]
    exact perm_append_comm.append_left w.written.flatten

theorem Conserved.step (h : Conserved w) (a : Action α) (hfit : NoOverflow w a) :
    Conserved (w.step notice a) := by
  by_cases hlate : NoOvertaking w a
  · obtain ⟨more, hmore, hstep⟩ := step_arrived notice w [w.content] a
    have hnow : FlushInv { w with arrived := [w.content] } :=
      ⟨h.ordered, h.overflowed, (append_nil _).symm⟩
    have hnext := hstep ▸ hnow.step a hfit hlate
    have horder : (w.step notice a).content = ([w.content] ++ more).flatten := hnext.inOrder
    refine ⟨hnext.ordered, hnext.overflowed, ?_⟩
    rw [horder, hmore, flatten_append, flatten_append, flatten_singleton]
    exact h.perm.append_right more.flatten
  · cases a with
    | chunk max data =>
      unfold NoOvertaking at hlate
      have hv : w.visible = true := by
        by_contra hv
        exact hlate fun h => absurd h hv
      have hd : data ≠ [] := by
        rintro rfl
        exact hlate fun _ h => absurd rfl h
      exact h.overtake max hv hd
    | _ => exact absurd trivial hlate

end

/-- **Nothing is lost or repeated** in a run without overflow, even where the order is not kept. -/
theorem output_conserved (notice : List α) (visible : Bool) (as : List (Action α))
    (hfit : StepsOk (World.step notice) NoOverflow (World.init visible) as) :
    Along (World.step notice) (fun w => w.content.Perm w.arrived.flatten) (World.init visible)
      as := by
  have hinit : Conserved (World.init visible : World α) :=
    ⟨FlushChain.ordered_new, rfl, Perm.refl []⟩
  exact (along_of_inv (fun w a h ha => h.step a ha) hinit hfit).mono fun w h => h.perm

end

def hiddenOutputTruncatedNotice : JsString :=
  JsString.ofString
    "\x18\r\n\x1b[33m[CC-Panes] Hidden terminal output was truncated to protect memory.\x1b[0m\r\n"

/-- the write of a first flush (`a`) is under way when a second flush takes `b`; then `c` comes -/
def overtakingRun : List (Action UInt16) :=
  [.chunk 10 [97], .setVisible true, .flush, .startWrite 0, .setVisible false, .chunk 10 [98],
    .setVisible true, .flush, .chunk 10 [99], .writeDone 0, .startWrite 1]

theorem overtaking_reorders :
    StepsOk (World.step hiddenOutputTruncatedNotice) NoOverflow (World.init false) overtakingRun ∧
      (run (World.step hiddenOutputTruncatedNotice) (World.init false) overtakingRun).written
        = [[97], [99], [98]] ∧
      ¬ Along (World.step hiddenOutputTruncatedNotice) InOrder (World.init false)
        overtakingRun := by
  refine ⟨by decide +kernel, by decide +kernel, fun h => ?_⟩
  exact absurd (show InOrder _ from h.last) (by decide +kernel)

theorem order_kept_flushed :
    Along (World.step hiddenOutputTruncatedNotice) InOrder (World.init false)
      [.chunk 10 [97], .setVisible true, .flush, .startWrite 0, .chunk 10 [98], .writeDone 0] :=
  order_kept _ _ _ (by decide +kernel) (by decide +kernel)

theorem overtaking_conserved :
    Along (World.step hiddenOutputTruncatedNotice) (fun w => w.content.Perm w.arrived.flatten)
      (World.init false) overtakingRun :=
  output_conserved _ _ _ (by decide +kernel)

end HiddenFlush

end CcPanes

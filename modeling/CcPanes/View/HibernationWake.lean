import CcPanes.View.Hibernation

/-!
# Hibernation loses and repeats nothing
-/

namespace CcPanes.Hibernation

open Run Transducer List Option
open HiddenFlush (hiddenOutputTruncatedNotice)

/-- `text` is what a terminal gives that has parsed the chunks received before some point, and then
the remaining ones, each once -/
def Exact (v : ViewSetup) (text origin : JsString) (rendered : List JsString) : Prop :=
  ∃ before after, rendered = before ++ after ∧
    text = v.serialize (origin ++ before.flatten) ++ after.flatten

/-- the container that is collected into or waits for its replay -/
def HibernationWorld.container (w : HibernationWorld) : Option HibernatedTerminalState :=
  match w.hibernatedState with
  | some h => some h
  | none => w.wakeState

/-- the renderer has gone on through all chunks: what it has not put out it still holds back -/
def Carries (v : ViewSetup) (w : HibernationWorld) : Prop :=
  ∃ earlier, feed (filters v.context) ([], []) w.received =
    (w.renderer.pending, earlier ++ w.rendered.flatten)

structure LosesNothing (v : ViewSetup) (w : HibernationWorld) : Prop where
  replays : ∀ r ∈ w.replays, ∀ text, r.data = some text → Exact v text r.origin r.rendered
  container : ∀ h, w.container = some h → h.overflowed = false →
    Exact v h.chunks.flatten w.origin w.rendered
  carry : Carries v w

def renderedChunk (v : ViewSetup) (w : HibernationWorld) (data : JsString) : JsString :=
  (w.renderTerminalData v data).2

/-- what a terminal that is still mounted takes: nothing once it has been photographed, unless the
photo is void, and nothing visible behind an overflowed backlog -/
def ViewTakes (v : ViewSetup) (w : HibernationWorld) (data : JsString) : Prop :=
  renderedChunk v w data = [] ∨
    ((∀ h ∈ w.container, h.overflowed = true) ∧ (w.visible = true → w.backlog.overflowed = false))

instance (v : ViewSetup) (w : HibernationWorld) (data : JsString) :
    Decidable (ViewTakes v w data) :=
  inferInstanceAs (Decidable (renderedChunk v w data = [] ∨
    ((∀ h ∈ w.container, h.overflowed = true) ∧ (w.visible = true → w.backlog.overflowed = false))))

def StepKeeps (v : ViewSetup) (w : HibernationWorld) : HibernationAction → Prop
  | .chunk data _ => w.effect = .view → ViewTakes v w data
  | .hibernateNow => w.effect = .view → w.hibernatedState = none →
    w.wakeState = none ∧ (w.queue = [] ∨ w.backlog.overflowed = true)
  | _ => True

instance (v : ViewSetup) (w : HibernationWorld) (a : HibernationAction) :
    Decidable (StepKeeps v w a) := by
  cases a with
  | chunk data => exact inferInstanceAs (Decidable (w.effect = .view → ViewTakes v w data))
  | hibernateNow =>
    exact inferInstanceAs (Decidable (w.effect = .view → w.hibernatedState = none →
      w.wakeState = none ∧ (w.queue = [] ∨ w.backlog.overflowed = true)))
  | _ => exact .isTrue trivial

/-! ## the container -/

section
variable {v : ViewSetup} {text origin : JsString} {rendered : List JsString}

theorem Exact.append (h : Exact v text origin rendered) (chunk : JsString) :
    Exact v (text ++ chunk) origin (rendered ++ [chunk]) := by
  obtain ⟨before, after, rfl, rfl⟩ := h
  refine ⟨before, after ++ [chunk], by rw [append_assoc], ?_⟩
  rw [flatten_append, flatten_singleton, append_assoc]

theorem Exact.append_nil (h : Exact v text origin rendered) :
    Exact v text origin (rendered ++ [[]]) := by
  have h' := h.append []
  rwa [List.append_nil] at h'

end

namespace HibernatedTerminalState

theorem create_cases (maxChars : Nat) (base : JsString) :
    (create maxChars base).overflowed = true ∨
      (create maxChars base).chunks.flatten = base := by
  unfold create
  by_cases hlong : maxChars < base.length
  · rw [if_pos hlong]
    exact .inl rfl
  · rw [if_neg hlong]
    exact .inr (by simp)

theorem invalidate_overflowed (h : HibernatedTerminalState) : h.invalidate.overflowed = true := by
  unfold invalidate
  by_cases ho : h.overflowed = true
  · rw [if_pos ho]
    exact ho
  · rw [if_neg ho]

theorem appendRendered_cases (h : HibernatedTerminalState) (maxChars : Nat) (chunk : JsString) :
    (h.appendRendered maxChars chunk).overflowed = true ∨
      (h.overflowed = false ∧
        (h.appendRendered maxChars chunk).chunks.flatten = h.chunks.flatten ++ chunk) := by
  unfold appendRendered
  cases ho : h.overflowed with
  | true =>
    left
    rw [if_pos (.inl rfl)]
    exact ho
  | false =>
    by_cases hempty : chunk = []
    · rw [if_pos (.inr hempty)]
      exact .inr ⟨rfl, by rw [hempty, append_nil]⟩
    rw [if_neg (by simp [hempty])]
    by_cases hfull : maxChars < h.totalChars + chunk.length
    · rw [if_pos hfull]
      exact .inl h.invalidate_overflowed
    · rw [if_neg hfull]
      exact .inr ⟨rfl, by simp⟩

end HibernatedTerminalState

section
variable {v : ViewSetup} {w : HibernationWorld}

theorem container_modifyCollected (f : HibernatedTerminalState → HibernatedTerminalState) :
    (w.modifyCollected f).container = w.container.map f := by
  unfold HibernationWorld.modifyCollected HibernationWorld.container
  cases hs : w.hibernatedState with
  | some => rfl
  | none => simp only

theorem modifyCollected_frame (f : HibernatedTerminalState → HibernatedTerminalState) :
    ∃ hibernated wake, w.modifyCollected f =
      { w with hibernatedState := hibernated, wakeState := wake } := by
  unfold HibernationWorld.modifyCollected
  split
  · exact ⟨_, _, rfl⟩
  · exact ⟨_, _, rfl⟩

theorem renderTerminalData_serves (hs : Serves v.context w.renderer) (data : JsString) :
    Serves v.context (w.renderTerminalData v data).1.renderer :=
  (render_sees v.context w.renderer data hs).1

theorem renderTerminalData_carries (hs : Serves v.context w.renderer) (h : Carries v w)
    (data : JsString) : Carries v (w.renderTerminalData v data).1 := by
  obtain ⟨earlier, hfeed⟩ := h
  obtain ⟨_, hsees⟩ := render_sees v.context w.renderer data hs
  refine ⟨earlier, ?_⟩
  show feed (filters v.context) ([], []) (w.received ++ [data]) = (_, _ ++
    (w.rendered ++ [(render w.renderer data v.context).2]).flatten)
  rw [feed_snoc, hfeed, hsees, flatten_append, flatten_singleton, append_assoc]
  rfl

/-! ## the terminal, its queue and its backlog -/

/-- what was parsed, what is queued and what is kept back are the chunks received, in order, each
write of whole chunks -/
def Streams (w : HibernationWorld) : Prop :=
  ∃ (before : List JsString) (writes : List (List JsString)) (after : List JsString),
    w.rendered = before ++ writes.flatten ++ after ∧
    w.parsed = w.origin ++ before.flatten ∧ w.queue = writes.map List.flatten ∧
    w.backlog.text = after.flatten

theorem Streams.parse (h : Streams w) : Streams w.parse := by
  obtain ⟨before, writes, after, hrendered, hparsed, hqueue, hbacklog⟩ := h
  unfold HibernationWorld.parse
  cases writes with
  | nil =>
    have hempty : w.queue = [] := hqueue
    simp only [hempty]
    exact ⟨before, [], after, hrendered, hparsed, hqueue, hbacklog⟩
  | cons write writes =>
    have hcons : w.queue = write.flatten :: writes.map flatten := hqueue
    simp only [hcons]
    refine ⟨before ++ write, writes, after, ?_, ?_, rfl, hbacklog⟩
    · show w.rendered = _
      rw [hrendered, flatten_cons]
      simp only [append_assoc]
    · show w.parsed ++ write.flatten = _
      rw [hparsed, flatten_append, append_assoc]

structure Taking (v : ViewSetup) (w : HibernationWorld) : Prop where
  effect : w.effect = .view
  container : w.container = none
  replays : ∀ r ∈ w.replays, ∀ text, r.data = some text → Exact v text r.origin r.rendered
  serves : Serves v.context w.renderer
  carry : Carries v w
  streams : w.backlog.overflowed = false → Streams w
  fits : w.visible = true → w.backlog.overflowed = false

theorem outputHandler_cases (quota : Nat) (data : JsString) :
    (renderedChunk v w data = [] ∧ w.outputHandler v quota data = (w.renderTerminalData v data).1) ∨
    (renderedChunk v w data ≠ [] ∧ ∃ backlog writable,
      w.backlog.push w.visible quota hiddenOutputTruncatedNotice (renderedChunk v w data) =
        (backlog, writable) ∧ w.outputHandler v quota data = { (w.renderTerminalData v data).1 with
        backlog := backlog, queue := w.queue ++ writable.toList }) := by
  by_cases hempty : renderedChunk v w data = []
  · exact .inl ⟨hempty, if_pos hempty⟩
  right
  refine ⟨hempty, ?_⟩
  obtain ⟨backlog, writable, hpush⟩ : ∃ backlog writable, w.backlog.push w.visible quota
      hiddenOutputTruncatedNotice (renderedChunk v w data) = (backlog, writable) := ⟨_, _, rfl⟩
  refine ⟨backlog, writable, hpush, ?_⟩
  rw [HibernationWorld.outputHandler_rendered v hempty]
  simp only [show w.backlog.push w.visible quota hiddenOutputTruncatedNotice
    (w.renderTerminalData v data).2 = (backlog, writable) from hpush]
  cases writable with
  | none =>
    show _ = { (w.renderTerminalData v data).1 with backlog := backlog, queue := w.queue ++ [] }
    rw [append_nil]
    rfl
  | some => rfl

theorem Streams.empty (h : Streams w) {data : JsString} (hempty : renderedChunk v w data = []) :
    Streams (w.renderTerminalData v data).1 := by
  obtain ⟨before, writes, after, hrendered, hparsed, hqueue, hbacklog⟩ := h
  refine ⟨before, writes, after ++ [[]], ?_, hparsed, hqueue, ?_⟩
  · show w.rendered ++ [renderedChunk v w data] = _
    rw [hrendered, hempty, append_assoc]
  · show w.backlog.text = _
    rw [hbacklog]
    simp

theorem Streams.push (h : Streams w) {data : JsString} {backlog : HiddenWriteBuffer UInt16}
    {writable : Option JsString}
    (hpush : (backlog.text = w.backlog.text ++ renderedChunk v w data ∧ writable = none) ∨
      (backlog.text = [] ∧ writable = some (w.backlog.text ++ renderedChunk v w data))) :
    Streams { (w.renderTerminalData v data).1 with
      backlog := backlog, queue := w.queue ++ writable.toList } := by
  obtain ⟨before, writes, after, hrendered, hparsed, hqueue, hbacklog⟩ := h
  have hreceived : w.rendered ++ [renderedChunk v w data] =
      before ++ writes.flatten ++ (after ++ [renderedChunk v w data]) := by
    rw [hrendered, append_assoc]
  have htext : w.backlog.text ++ renderedChunk v w data =
      (after ++ [renderedChunk v w data]).flatten := by
    rw [hbacklog, flatten_append, flatten_singleton]
  rcases hpush with ⟨hkept, rfl⟩ | ⟨hdrained, rfl⟩
  · refine ⟨before, writes, after ++ [renderedChunk v w data], hreceived, hparsed, ?_, ?_⟩
    · show w.queue ++ [] = _
      rw [append_nil, hqueue]
    · rw [← htext]
      exact hkept
  · refine ⟨before, writes ++ [after ++ [renderedChunk v w data]], [], ?_, hparsed, ?_, hdrained⟩
    · show w.rendered ++ [renderedChunk v w data] = _
      rw [hreceived, flatten_append, flatten_singleton, append_nil]
      simp only [append_assoc]
    · show w.queue ++ [w.backlog.text ++ renderedChunk v w data] = _
      rw [hqueue, htext, map_append]
      rfl

theorem Taking.output (h : Taking v w) (quota : Nat) (data : JsString) :
    Taking v (w.outputHandler v quota data) := by
  have hserves := renderTerminalData_serves h.serves data
  have hcarry := renderTerminalData_carries h.serves h.carry data
  rcases outputHandler_cases (v := v) (w := w) quota data with
    ⟨hempty, hout⟩ | ⟨hne, backlog, writable, hpush, hout⟩
  · rw [hout]
    exact ⟨h.effect, h.container, h.replays, hserves, hcarry,
      fun ho => (h.streams ho).empty hempty, h.fits⟩
  rw [hout]
  have hb := congrArg Prod.fst hpush
  have hw := congrArg Prod.snd hpush
  refine ⟨h.effect, h.container, h.replays, hserves, hcarry, ?_, ?_⟩
  · intro ho
    cases hvisible : w.visible with
    | true =>
      have hfits := h.fits hvisible
      obtain ⟨htext, _, hwritten⟩ :=
        w.backlog.push_visible quota hiddenOutputTruncatedNotice hne hfits
      rw [hvisible] at hb hw
      rw [hb] at htext
      exact (h.streams hfits).push (.inr ⟨htext, hw.symm.trans hwritten⟩)
    | false =>
      rw [hvisible] at hb hw
      by_cases hfull : w.backlog.overflowed = true ∨
          quota < w.backlog.pendingLength + (renderedChunk v w data).length
      · obtain ⟨hover, _⟩ := w.backlog.push_hidden_drops hiddenOutputTruncatedNotice hne hfull
        rw [hb] at hover
        cases hover.symm.trans ho
      have hopen : w.backlog.overflowed = false := by
        cases hover : w.backlog.overflowed with
        | false => rfl
        | true => exact absurd (.inl hover) hfull
      have hfit : w.backlog.pendingLength + (renderedChunk v w data).length ≤ quota :=
        Nat.le_of_not_lt fun hlt => hfull (.inr hlt)
      obtain ⟨htext, _, hnone⟩ := w.backlog.push_hidden hiddenOutputTruncatedNotice hopen hfit
      rw [hb] at htext
      exact (h.streams hopen).push (.inl ⟨htext, hw.symm.trans hnone⟩)
  · intro hvisible
    have hvisible' : w.visible = true := hvisible
    obtain ⟨_, hover, _⟩ :=
      w.backlog.push_visible quota hiddenOutputTruncatedNotice hne (h.fits hvisible')
    rw [hvisible'] at hb
    rw [hb] at hover
    exact hover

theorem Taking.outputs (h : Taking v w) (quota : Nat) (chunks : List JsString) :
    Taking v (chunks.foldl (HibernationWorld.outputHandler v quota) w) := by
  induction chunks generalizing w with
  | nil => exact h
  | cons data chunks ih => exact ih (h.output quota data)

structure Collecting (v : ViewSetup) (w : HibernationWorld) : Prop where
  effect : w.effect = .collecting
  container : w.container ≠ none
  losesNothing : LosesNothing v w
  serves : Serves v.context w.renderer
  idle : w.queue = [] ∧ w.backlog.text = [] ∧ w.backlog.overflowed = false

theorem appendRendered_nil (h : HibernatedTerminalState) (maxChars : Nat) :
    h.appendRendered maxChars [] = h := if_pos (.inr rfl)

theorem collect_cases (data : JsString) :
    ∃ hibernated wake, w.collect v data = { (w.renderTerminalData v data).1 with
        hibernatedState := hibernated, wakeState := wake } ∧
      (w.collect v data).container =
        w.container.map (·.appendRendered v.maxChars (renderedChunk v w data)) := by
  by_cases hempty : renderedChunk v w data = []
  · have hout : w.collect v data = (w.renderTerminalData v data).1 := if_pos hempty
    refine ⟨w.hibernatedState, w.wakeState, hout, ?_⟩
    rw [hout, hempty]
    show w.container = w.container.map (·.appendRendered v.maxChars [])
    cases w.container with
    | none => rfl
    | some => rw [map_some, appendRendered_nil]
  have hout : w.collect v data = (w.renderTerminalData v data).1.modifyCollected
      (·.appendRendered v.maxChars (renderedChunk v w data)) := if_neg hempty
  obtain ⟨hibernated, wake, hframe⟩ :=
    modifyCollected_frame (w := (w.renderTerminalData v data).1)
      (·.appendRendered v.maxChars (renderedChunk v w data))
  refine ⟨hibernated, wake, hout.trans hframe, ?_⟩
  rw [hout, container_modifyCollected]
  rfl

theorem Collecting.collect (h : Collecting v w) (data : JsString) :
    Collecting v (w.collect v data) := by
  have hserves := renderTerminalData_serves h.serves data
  have hcarry := renderTerminalData_carries h.serves h.losesNothing.carry data
  obtain ⟨hibernated, wake, hout, hcontainer⟩ := collect_cases (v := v) (w := w) data
  have hrendered : (w.collect v data).rendered = w.rendered ++ [renderedChunk v w data] := by
    rw [hout]
    rfl
  refine ⟨?_, ?_, ⟨?_, ?_, ?_⟩, ?_, ?_⟩
  · rw [hout]
    exact h.effect
  · rw [hcontainer]
    intro hnone
    exact h.container (map_eq_none_iff.mp hnone)
  · rw [hout]
    exact h.losesNothing.replays
  · intro c hc ho
    rw [hcontainer] at hc
    obtain ⟨c', hc', rfl⟩ := map_eq_some_iff.mp hc
    rcases c'.appendRendered_cases v.maxChars (renderedChunk v w data) with
      hover | ⟨hopen, hchunks⟩
    · cases hover.symm.trans ho
    rw [hchunks, hrendered]
    have hexact := (h.losesNothing.container c' hc' hopen).append (renderedChunk v w data)
    rw [hout]
    exact hexact
  · rw [hout]
    exact hcarry
  · rw [hout]
    exact hserves
  · rw [hout]
    exact h.idle

theorem Collecting.collects (h : Collecting v w) (chunks : List JsString) :
    Collecting v (chunks.foldl (HibernationWorld.collect v) w) := by
  induction chunks generalizing w with
  | nil => exact h
  | cons data chunks ih => exact ih (h.collect data)

/-! ## every step keeps it -/

/-- the invariant of a run -/
structure Sound (v : ViewSetup) (w : HibernationWorld) : Prop where
  losesNothing : LosesNothing v w
  serves : Serves v.context w.renderer
  view : w.effect = .view → w.container = none → w.backlog.overflowed = false → Streams w
  opening : w.effect = .opening → w.hibernatedState = none
  replayed : w.effect = .replayed → w.container = none ∧ w.parsed = w.origin ∧ w.rendered = []
  collecting : w.effect = .collecting → w.container ≠ none
  idle : w.effect ≠ .view →
    w.queue = [] ∧ w.backlog.text = [] ∧ w.backlog.overflowed = false

theorem Taking.sound (h : Taking v w) : Sound v w := by
  have hview := h.effect
  refine ⟨⟨h.replays, ?_, h.carry⟩, h.serves, fun _ _ => h.streams, ?_, ?_, ?_, ?_⟩
  · intro c hc
    cases h.container.symm.trans hc
  · intro he
    cases hview.symm.trans he
  · intro he
    cases hview.symm.trans he
  · intro he
    cases hview.symm.trans he
  · intro he
    exact absurd hview he

theorem Collecting.sound (h : Collecting v w) : Sound v w := by
  have hcollecting := h.effect
  refine ⟨h.losesNothing, h.serves, ?_, ?_, ?_, fun _ => h.container, fun _ => h.idle⟩
  · intro he
    cases hcollecting.symm.trans he
  · intro he
    cases hcollecting.symm.trans he
  · intro he
    cases hcollecting.symm.trans he

theorem container_none (h : w.container = none) :
    w.hibernatedState = none ∧ w.wakeState = none := by
  unfold HibernationWorld.container at h
  cases hs : w.hibernatedState with
  | some =>
    simp only [hs] at h
    cases h
  | none =>
    simp only [hs] at h
    exact ⟨rfl, h⟩

theorem Sound.output (h : Sound v w) (heffect : w.effect = .view) {data : JsString}
    (hok : ViewTakes v w data) (quota : Nat) : Sound v (w.outputHandler v quota data) := by
  have hserves := renderTerminalData_serves h.serves data
  have hcarry := renderTerminalData_carries h.serves h.losesNothing.carry data
  have hview : ∀ e : Effect, e ≠ .view → w.effect ≠ e := fun e he h' => he (h'.symm.trans heffect)
  by_cases hempty : renderedChunk v w data = []
  · have hout : w.outputHandler v quota data = (w.renderTerminalData v data).1 := if_pos hempty
    rw [hout]
    refine ⟨⟨h.losesNothing.replays, ?_, hcarry⟩, hserves,
      fun he hc ho => (h.view he hc ho).empty hempty, h.opening,
      fun he => absurd he (hview _ (by simp)), h.collecting, h.idle⟩
    intro c hc ho
    show Exact v c.chunks.flatten w.origin (w.rendered ++ [renderedChunk v w data])
    rw [hempty]
    exact (h.losesNothing.container c hc ho).append_nil
  obtain ⟨hvoid, hfits⟩ := hok.resolve_left hempty
  cases hcontainer : w.container with
  | none =>
    have htaking : Taking v w := ⟨heffect, hcontainer, h.losesNothing.replays, h.serves,
      h.losesNothing.carry, h.view heffect hcontainer, hfits⟩
    exact (htaking.output quota data).sound
  | some c =>
    have hover : c.overflowed = true := hvoid c hcontainer
    rcases outputHandler_cases (v := v) (w := w) quota data with
      ⟨hnil, _⟩ | ⟨_, backlog, writable, _, hout⟩
    · exact absurd hnil hempty
    rw [hout]
    refine ⟨⟨h.losesNothing.replays, ?_, hcarry⟩, hserves, ?_, h.opening,
      fun he => absurd he (hview _ (by simp)), h.collecting, fun he => absurd heffect he⟩
    · intro c' hc' ho
      cases hcontainer.symm.trans hc'
      cases hover.symm.trans ho
    · intro _ hnone
      cases hcontainer.symm.trans hnone

theorem Sound.chunk (h : Sound v w) {data : JsString} {quota : Nat}
    (hok : StepKeeps v w (.chunk data quota)) : Sound v (w.chunk v data quota) := by
  have hwaits : Sound v { w with pendingChunks := w.pendingChunks ++ [data] } :=
    ⟨⟨h.losesNothing.replays, h.losesNothing.container, h.losesNothing.carry⟩, h.serves, h.view,
      h.opening, h.replayed, h.collecting, h.idle⟩
  unfold HibernationWorld.chunk
  split
  · next heffect => exact h.output heffect (hok heffect) quota
  · next heffect =>
    have hidle : w.effect ≠ .view := by simp [heffect]
    have hcollecting : Collecting v w :=
      ⟨heffect, h.collecting heffect, h.losesNothing, h.serves, h.idle hidle⟩
    exact (hcollecting.collect data).sound
  · exact hwaits

theorem Sound.parse (h : Sound v w) : Sound v w.parse := by
  cases hqueue : w.queue with
  | nil =>
    have hsame : w.parse = w := by
      unfold HibernationWorld.parse
      rw [hqueue]
    rw [hsame]
    exact h
  | cons write queue =>
    have heffect : w.effect = .view := by
      by_contra hne
      have hempty := (h.idle hne).1
      rw [hqueue] at hempty
      cases hempty
    have hout : w.parse = { w with parsed := w.parsed ++ write, queue := queue } := by
      unfold HibernationWorld.parse
      rw [hqueue]
    refine ⟨?_, ?_, ?_, ?_, ?_, ?_, ?_⟩
    · rw [hout]
      exact ⟨h.losesNothing.replays, h.losesNothing.container, h.losesNothing.carry⟩
    · rw [hout]
      exact h.serves
    · intro _ hc ho
      rw [hout] at hc ho
      exact (h.view heffect hc ho).parse
    · rw [hout]
      exact h.opening
    · rw [hout]
      intro he
      cases heffect.symm.trans he
    · rw [hout]
      exact h.collecting
    · rw [hout]
      exact fun he => absurd heffect he

theorem Sound.hibernateNow (h : Sound v w) (hok : StepKeeps v w .hibernateNow) :
    Sound v (w.hibernateNow v) := by
  unfold HibernationWorld.hibernateNow
  by_cases hgo : w.effect = .view ∧ w.hibernatedState = none
  · rw [if_pos hgo]
    obtain ⟨heffect, hhibernated⟩ := hgo
    obtain ⟨hwake, hqueue⟩ := hok heffect hhibernated
    have hcontainer : w.container = none := by
      unfold HibernationWorld.container
      rw [hhibernated]
      exact hwake
    have hview : ∀ e : Effect, e ≠ .view → w.effect ≠ e :=
      fun e he h' => he (h'.symm.trans heffect)
    refine ⟨⟨h.losesNothing.replays, ?_, h.losesNothing.carry⟩, h.serves, ?_,
      fun he => absurd he (hview _ (by simp)), fun he => absurd he (hview _ (by simp)),
      fun he => absurd he (hview _ (by simp)), fun he => absurd heffect he⟩
    · intro c hc ho
      obtain rfl := some.inj hc
      cases hover : w.backlog.overflowed with
      | true =>
        -- the photo is void
        have hvoid : (HibernatedTerminalState.create v.maxChars
            (v.serialize w.parsed)).markDesynced.overflowed = true :=
          HibernatedTerminalState.invalidate_overflowed _
        simp only [HiddenWriteBuffer.didOverflow, hover, if_true] at ho
        cases hvoid.symm.trans ho
      | false =>
        have hempty : w.queue = [] := by
          rcases hqueue with h' | h'
          · exact h'
          · cases hover.symm.trans h'
        obtain ⟨before, writes, after, hrendered, hparsed, hwrites, hbacklog⟩ :=
          h.view heffect hcontainer hover
        have hnil : writes = [] := map_eq_nil_iff.mp (hwrites.symm.trans hempty)
        subst hnil
        obtain ⟨_, _, htaken⟩ := w.backlog.takeAll_eq hiddenOutputTruncatedNotice hover
        refine ⟨before, after, ?_, ?_⟩
        · show w.rendered = _
          rw [hrendered, flatten_nil, append_nil]
        simp only [HiddenWriteBuffer.didOverflow, hover, if_false, Bool.false_eq_true] at ho ⊢
        rcases HibernatedTerminalState.create_cases v.maxChars (v.serialize w.parsed ++
            (w.backlog.takeAll hiddenOutputTruncatedNotice).2.getD []) with h' | h'
        · cases h'.symm.trans ho
        · rw [h', htaken, hbacklog, hparsed]
    · intro _ hnone
      cases hnone
  · rw [if_neg hgo]
    exact h

theorem Sound.wake (h : Sound v w) : Sound v w.wakeFromHibernation := by
  unfold HibernationWorld.wakeFromHibernation
  cases hs : w.hibernatedState with
  | none => exact h
  | some c =>
    have hcontainer : w.container = some c := by
      unfold HibernationWorld.container
      rw [hs]
    refine ⟨⟨h.losesNothing.replays, ?_, h.losesNothing.carry⟩, h.serves, ?_, fun _ => rfl, ?_, ?_,
      h.idle⟩
    · intro c' hc'
      exact h.losesNothing.container c' (hcontainer.trans hc')
    · intro _ hnone
      cases hnone
    · intro he
      cases hcontainer.symm.trans (h.replayed he).1
    · intro _ hnone
      cases hnone

theorem Sound.cleanup (h : Sound v w) : Sound v w.cleanup := by
  unfold HibernationWorld.cleanup
  have hdropped : Sound v { w with
      effect := .cleaned, parsed := [], queue := [], backlog := w.backlog.reset } := by
    refine ⟨⟨h.losesNothing.replays, h.losesNothing.container, h.losesNothing.carry⟩, h.serves,
      ?_, ?_, ?_, ?_, fun _ => ⟨rfl, rfl, rfl⟩⟩
    all_goals
      intro he
      cases he
  split
  · exact hdropped
  · exact hdropped
  · exact hdropped
  · next heffect =>
    refine ⟨⟨h.losesNothing.replays, h.losesNothing.container, h.losesNothing.carry⟩, h.serves,
      ?_, ?_, ?_, ?_, fun _ => h.idle (by simp [heffect])⟩
    all_goals
      intro he
      cases he
  · exact h

theorem Sound.start (h : Sound v w) : Sound v (w.start v) := by
  unfold HibernationWorld.start
  by_cases heffect : w.effect = .cleaned
  · rw [if_pos heffect]
    have hidle := h.idle (by simp [heffect])
    split
    · next c hs =>
      have hcollecting : Collecting v { w with effect := .collecting, pendingChunks := [] } := by
        refine ⟨rfl, ?_, ⟨h.losesNothing.replays, h.losesNothing.container, h.losesNothing.carry⟩,
          h.serves, hidle⟩
        intro hnone
        cases hs.symm.trans (container_none hnone).1
      exact (hcollecting.collects w.pendingChunks).sound
    · next hs =>
      refine ⟨⟨h.losesNothing.replays, h.losesNothing.container, h.losesNothing.carry⟩, h.serves,
        ?_, fun _ => hs, ?_, ?_, fun _ => hidle⟩
      all_goals
        intro he
        cases he
  · rw [if_neg heffect]
    exact h

theorem Sound.replayWake (h : Sound v w) (snapshot : JsString) :
    Sound v (w.replayWake snapshot) := by
  unfold HibernationWorld.replayWake
  by_cases heffect : w.effect = .opening
  · rw [if_pos heffect]
    have hs := h.opening heffect
    have hcontainer : w.container = w.wakeState := by
      unfold HibernationWorld.container
      rw [hs]
    have hnone : ({ w with wakeState := none } : HibernationWorld).container = none := by
      unfold HibernationWorld.container
      simp only [hs]
    refine ⟨⟨?_, ?_, ?_⟩, h.serves, ?_, ?_, fun _ => ⟨hnone, rfl, rfl⟩, ?_,
      fun _ => h.idle (by simp [heffect])⟩
    · intro r hr text htext
      rcases mem_append.mp hr with hold | hnew
      · exact h.losesNothing.replays r hold text htext
      obtain rfl := mem_singleton.mp hnew
      obtain ⟨c, hc, hdata⟩ := bind_eq_some_iff.mp htext
      unfold HibernatedTerminalState.wakeData at hdata
      cases ho : c.overflowed with
      | true =>
        rw [ho] at hdata
        cases hdata
      | false =>
        rw [ho] at hdata
        cases hdata
        exact h.losesNothing.container c (hcontainer.trans hc) ho
    · intro c hc
      cases hnone.symm.trans hc
    · obtain ⟨earlier, hfeed⟩ := h.losesNothing.carry
      refine ⟨earlier ++ w.rendered.flatten, ?_⟩
      show feed _ _ w.received = (_, _ ++ [])
      rw [append_nil]
      exact hfeed
    all_goals
      intro he
      cases he
  · rw [if_neg heffect]
    exact h

theorem Sound.bind (h : Sound v w) (quota : Nat) : Sound v (w.bind v quota) := by
  unfold HibernationWorld.bind
  by_cases heffect : w.effect = .replayed
  · rw [if_pos heffect]
    obtain ⟨hcontainer, hparsed, hrendered⟩ := h.replayed heffect
    obtain ⟨hqueue, hbacklog, hover⟩ := h.idle (by simp [heffect])
    have htaking : Taking v { w with effect := .view, pendingChunks := [] } := by
      refine ⟨rfl, hcontainer, h.losesNothing.replays, h.serves, h.losesNothing.carry, ?_,
        fun _ => hover⟩
      intro _
      refine ⟨[], [], [], hrendered, ?_, hqueue, hbacklog⟩
      show w.parsed = w.origin ++ []
      rw [append_nil]
      exact hparsed
    exact (htaking.outputs quota w.pendingChunks).sound
  · rw [if_neg heffect]
    exact h

theorem Sound.desync (h : Sound v w) : Sound v w.desync := by
  unfold HibernationWorld.desync
  by_cases heffect : w.effect = .collecting
  · rw [if_pos heffect]
    have hcontainer := container_modifyCollected (w := w) (·.markDesynced)
    obtain ⟨hibernated, wake, hframe⟩ := modifyCollected_frame (w := w) (·.markDesynced)
    have hne : (w.modifyCollected (·.markDesynced)).container ≠ none := by
      rw [hcontainer]
      intro hnone
      exact h.collecting heffect (map_eq_none_iff.mp hnone)
    have hvoid : ∀ c, (w.modifyCollected (·.markDesynced)).container = some c →
        c.overflowed = true := by
      intro c hc
      rw [hcontainer] at hc
      obtain ⟨c', _, rfl⟩ := map_eq_some_iff.mp hc
      exact c'.invalidate_overflowed
    rw [hframe] at hne hvoid ⊢
    have hcollecting :
        Collecting v { w with hibernatedState := hibernated, wakeState := wake } := by
      refine ⟨heffect, hne, ⟨h.losesNothing.replays, ?_, h.losesNothing.carry⟩, h.serves,
        h.idle (by simp [heffect])⟩
      intro c hc ho
      cases (hvoid c hc).symm.trans ho
    exact hcollecting.sound
  · rw [if_neg heffect]
    exact h

theorem Sound.setVisible (h : Sound v w) (visible : Bool) :
    Sound v { w with visible := visible } :=
  ⟨⟨h.losesNothing.replays, h.losesNothing.container, h.losesNothing.carry⟩, h.serves, h.view,
    h.opening, h.replayed, h.collecting, h.idle⟩

/-- **Every step that meets the condition keeps the invariant.** -/
theorem sound_step (h : Sound v w) (a : HibernationAction) (hok : StepKeeps v w a) :
    Sound v (step v w a) := by
  cases a with
  | chunk => exact h.chunk hok
  | parse => exact h.parse
  | setVisible visible => exact h.setVisible visible
  | hibernateNow => exact h.hibernateNow hok
  | wakeFromHibernation => exact h.wake
  | cleanup => exact h.cleanup
  | start => exact h.start
  | replayWake snapshot => exact h.replayWake snapshot
  | bind quota => exact h.bind quota
  | desync => exact h.desync

end

theorem sound_init (v : ViewSetup) : Sound v .init := by
  refine ⟨⟨nofun, nofun, [], rfl⟩,
    serves_fresh v.context, ?_, fun _ => rfl, ?_, ?_, fun _ => ⟨rfl, rfl, rfl⟩⟩
  all_goals
    intro he
    cases he

/-! ## runs -/

/-- **Hibernation loses and repeats nothing** in every run whose steps meet the condition: a
container that is not void is the terminal at some point and the chunks received since, each once,
when it is replayed and before. -/
theorem losesNothing_of_stepKeeps (v : ViewSetup) (as : List HibernationAction)
    (h : StepsOk (step v) (StepKeeps v) .init as) : Along (step v) (LosesNothing v) .init as := by
  have hsound : Along (step v) (Sound v) .init as :=
    along_of_inv (I := Sound v) (fun _ a hs hok => sound_step hs a hok) (sound_init v) h
  exact hsound.mono fun _ hs => hs.losesNothing

/-- a terminal that shows the plain text it has parsed -/
def plainSetup : ViewSetup where
  serialize := id
  context := ⟨true, some "session", false⟩
  maxChars := hibernatedMaxChars

/-- a hidden view hibernates with a backlog, output is collected and replayed -/
def wakeRun : List HibernationAction :=
  [.replayWake [], .bind 100, .chunk [97] 100, .parse, .setVisible false, .chunk [98] 100,
    .hibernateNow, .cleanup, .chunk [99] 100, .start, .chunk [100] 100, .wakeFromHibernation,
    .chunk [101] 100, .cleanup, .start, .replayWake [], .bind 100]

theorem wakeRun_losesNothing : Along (step plainSetup) (LosesNothing plainSetup) .init wakeRun :=
  losesNothing_of_stepKeeps plainSetup wakeRun (by decide)

def unparsedRun : List HibernationAction :=
  [.replayWake [], .bind 100, .chunk [97] 100, .hibernateNow]

def lateChunkRun : List HibernationAction :=
  [.replayWake [], .bind 100, .setVisible false, .hibernateNow, .chunk [97] 100]

theorem exact_length {text origin : JsString} {rendered : List JsString}
    (h : Exact plainSetup text origin rendered) :
    text.length = origin.length + rendered.flatten.length := by
  obtain ⟨before, after, rfl, rfl⟩ := h
  show (origin ++ before.flatten ++ after.flatten).length = _
  rw [flatten_append]
  simp only [length_append]
  omega

theorem hibernation_loses :
    ¬ Along (step plainSetup) (LosesNothing plainSetup) .init unparsedRun ∧
      ¬ Along (step plainSetup) (LosesNothing plainSetup) .init lateChunkRun := by
  refine ⟨?_, ?_⟩
  · intro h
    have hexact := h.last.container ⟨[[]], 0, false⟩ (by decide) rfl
    cases exact_length hexact
  · intro h
    have hexact := h.last.container ⟨[[]], 0, false⟩ (by decide) rfl
    cases exact_length hexact

end CcPanes.Hibernation

import CcPanes.View.ResyncView
import CcPanes.View.SeqTracker

/-!
# Anchors of a session with one view

The backend sends its output in chunks; a chunk that is lost on the way is replaced by a desync
signal in its place.  The view hands chunks, backlog and snapshots to the terminal, which takes them
in order; the tracker records what has come and what the terminal has taken.

A code unit of the view is represented by the chunk that it comes from, or `none` for a text of the
front end's own.
-/

namespace CcPanes
open List Option

namespace CheckpointAnchor

open Run ResyncView

variable {v : ResyncView (Option Nat)} {queue : List Write} {v' : ResyncView (Option Nat)}
  {x : Emission} {extra : List Write} {w : World} {t : SeqTracker}
  {b : HiddenWriteBuffer (Option Nat)} {upTo : Nat}

/-- what the backend puts on the way to the view, by the end position of the chunk -/
inductive Emission
  | chunk (endSeq : Nat)
  | lost (endSeq : Nat)
  /-- a desync signal without a loss -/
  | signal

def Emission.endSeq : Emission → Option Nat
  | .chunk e => some e
  | .lost e => some e
  | .signal => none

/-- a write that the terminal has still to take -/
inductive Write
  /-- the direct write of a chunk, behind what was left of the backlog -/
  | chunk (data : List (Option Nat)) (endSeq : Nat)
  | text (data : List (Option Nat))
  | replay (upTo : Nat)

def Write.data : Write → List (Option Nat)
  | .chunk data _ => data
  | .text data => data
  | .replay _ => []

def Write.isChunk : Write → Bool
  | .chunk _ _ => true
  | _ => false

/-- the front end's own texts: notices, and the grounding sequence -/
def ownText : List (Option Nat) := [none]

structure World where
  stream : List Emission
  /-- the end of the output -/
  emitted : Nat
  /-- how much of `stream` has come -/
  delivered : Nat
  /-- the answer on its way: what the backend had when it served the request -/
  response : Option Nat
  view : ResyncView (Option Nat)
  tracker : SeqTracker
  queue : List Write
  /-- since its last reset the terminal shows the output up to here, from a snapshot, -/
  shownBase : Nat
  /-- and these units -/
  shown : List (Option Nat)
  /-- the chunks that rendered to nothing -/
  blank : List Nat

inductive Action
  | emit (bytes : Nat)
  | lose (bytes : Nat)
  | signal
  /-- the next of `stream` comes; `hasTerm`: there is a terminal -/
  | deliver (hasTerm : Bool) (maxPendingChars renderedLength : Nat)
  /-- the terminal takes the next write -/
  | parse
  /-- the next write fails -/
  | fail
  /-- a recovery asked for by hand -/
  | refresh
  | serve
  /-- the answer arrives; otherwise there is no snapshot, or the request fails -/
  | respond (arrived : Bool)
  | view (a : ViewAction (Option Nat))

section
variable (epoch : Nat)

/-- the terminal shows the output up to `base`; `anchored`: from a snapshot with an epoch -/
def World.init (visible anchored : Bool) (base : Nat) : World :=
  ⟨[], base, 0, none, .new visible,
    if anchored then SeqTracker.reanchorSeq none base epoch else none, [], base, [], []⟩

def World.write (w : World) (x : Write) : World := { w with queue := w.queue ++ [x] }

def reanchorAfterRecovery (t : SeqTracker) (upTo : Nat) : SeqTracker :=
  if epoch = 0 then t else t.reanchorSeq upTo epoch

def World.onEvent (w : World) : ViewEvent (Option Nat) → World
  | .requested _ => w
  | .reset _ => { w with shownBase := 0, shown := [] }
  | .replay _ upTo => w.write (.replay upTo)
  | .replayed _ upTo => { w with tracker := reanchorAfterRecovery epoch w.tracker upTo }
  | .groundAfterGap => w.write (.text ownText)
  | .write data _ => w.write (.text data)
  | .resyncFailedNotice => w.write (.text ownText)

def World.record (w : World) (r : ResyncView (Option Nat) × List (ViewEvent (Option Nat))) :
    World :=
  r.2.foldl (World.onEvent epoch) { w with view := r.1 }

def World.parse (w : World) : World :=
  match w.queue with
  | [] => w
  | .chunk data endSeq :: queue =>
    { w with
      queue := queue
      shown := w.shown ++ data
      tracker := w.tracker.noteWritten endSeq }
  | .text data :: queue => { w with queue := queue, shown := w.shown ++ data }
  | .replay upTo :: queue =>
    { w with queue := queue, shownBase := upTo }.record epoch (w.view.replayDone true)

def World.fail (w : World) : World :=
  match w.queue with
  | [] => w
  | .chunk _ _ :: queue => { w with queue := queue, tracker := w.tracker.invalidateSeq }
  | .text _ :: queue => { w with queue := queue }
  | .replay _ :: queue => { w with queue := queue }.record epoch (w.view.replayDone false)

/-! ## what comes from the backend -/

/-- the output handler, with a chunk that renders to `renderedLength` units -/
def World.outputHandler (w : World) (hasTerm : Bool) (maxPendingChars renderedLength endSeq : Nat) :
    World :=
  if hasTerm = false then { w with tracker := w.tracker.invalidateSeq }
  else if renderedLength = 0 then
    { w with tracker := w.tracker.noteWritten endSeq, blank := w.blank ++ [endSeq] }
  else
    match w.view.output ownText maxPendingChars (List.replicate renderedLength (some endSeq)) with
    | (view, none) => { w with view := view, tracker := w.tracker.invalidateSeq }
    | (view, some writableData) => { w with view := view }.write (.chunk writableData endSeq)

def World.dispatchOutput (w : World) (hasTerm : Bool)
    (maxPendingChars renderedLength endSeq : Nat) : World :=
  { w with tracker := w.tracker.noteReceived endSeq }.outputHandler hasTerm maxPendingChars
    renderedLength endSeq

def World.dispatchDesync (w : World) (hasTerm : Bool) : World :=
  { w with
    tracker := w.tracker.invalidateSeq
    view := if hasTerm then w.view.desyncHandler else w.view }

def World.deliver (w : World) (hasTerm : Bool) (maxPendingChars renderedLength : Nat) : World :=
  match w.stream[w.delivered]? with
  | none => w
  | some (.chunk endSeq) =>
    { w with delivered := w.delivered + 1 }.dispatchOutput hasTerm maxPendingChars renderedLength
      endSeq
  | some (.lost _) => { w with delivered := w.delivered + 1 }.dispatchDesync hasTerm
  | some .signal => { w with delivered := w.delivered + 1 }.dispatchDesync hasTerm

def isRequested (v : ResyncView (Option Nat)) : Bool :=
  match v.core with
  | some ⟨_, .requested⟩ => true
  | _ => false

def World.respond (w : World) (arrived : Bool) : World :=
  match arrived, w.response with
  | true, none => w
  | true, some upTo =>
    { w with
      response := none
      tracker := if epoch = 0 then w.tracker else w.tracker.noteEpoch epoch }.record epoch
        (w.view.respond (some upTo))
  | false, _ => { w with response := none }.record epoch (w.view.respond none)

def World.step (w : World) : Action → World
  | .emit bytes =>
    { w with
      emitted := w.emitted + bytes + 1
      stream := w.stream ++ [.chunk (w.emitted + bytes + 1)] }
  | .lose bytes =>
    { w with
      emitted := w.emitted + bytes + 1
      stream := w.stream ++ [.lost (w.emitted + bytes + 1)] }
  | .signal => { w with stream := w.stream ++ [.signal] }
  | .deliver hasTerm maxPendingChars renderedLength =>
    w.deliver hasTerm maxPendingChars renderedLength
  | .parse => w.parse epoch
  | .fail => w.fail epoch
  | .refresh => { w with view := w.view.desyncHandler }
  | .serve =>
    if isRequested w.view ∧ w.response = none then { w with response := some w.emitted } else w
  | .respond arrived => w.respond epoch arrived
  | .view (.output _ _) => w
  | .view (.replayDone _) => w
  | .view a => w.record epoch (w.view.step ownText a)

end

/-- the end position of chunk `i` of the output, whether it was lost or not -/
def World.endAt (w : World) (i : Nat) : Option Nat := w.stream[i]?.bind Emission.endSeq

def World.handed (w : World) : List (Option Nat) := w.queue.flatMap Write.data

/-- the terminal has taken every chunk up to `s`, and was handed no chunk after `s` -/
structure Shows (w : World) (s : Nat) : Prop where
  base : w.shownBase ≤ s
  complete : ∀ i e, w.endAt i = some e → e ≤ s → e ≤ w.shownBase ∨ some e ∈ w.shown ∨ e ∈ w.blank
  exact : ∀ e, some e ∈ w.shown ++ w.handed → e ≤ s

def AnchorSound (w : World) : Prop :=
  ∀ candidate, w.tracker.anchorCandidate = some candidate → Shows w candidate.anchorSeq

/-- a chunk that has come was not lost, and rendered to nothing -/
def World.NothingSince (w : World) (upTo : Nat) : Prop :=
  ∀ i e, i < w.delivered → w.endAt i = some e → upTo < e → e ∈ w.blank

/-- three conditions: the terminal is reset only while the tracker is invalid; when a snapshot has
been written, nothing has come of what the backend sent or lost after it, except for chunks that
render to nothing; a chunk that renders to nothing comes only while no direct write is on its way,
or while the tracker is invalid -/
def Careful (w : World) : Action → Prop
  | .respond true => w.response ≠ none → w.tracker.Invalid
  | .parse => ∀ upTo queue, w.queue = .replay upTo :: queue → w.NothingSince upTo
  | .deliver true _ 0 => ∀ endSeq, w.stream[w.delivered]? = some (.chunk endSeq) →
      (w.tracker.any SeqTrackerEntry.valid) = true → ∀ x ∈ w.queue, x.isChunk = false
  | _ => True

/-! ## the way of the output -/

def Write.isReplay : Write → Bool
  | .replay _ => true
  | _ => false

/-- what has still to reach the screen, but for the backlog -/
def World.inFlight (w : World) : List (Option Nat) := w.handed ++ w.view.flushes.waitingText

/-- where a snapshot is being written: nothing on the screen or on its way is later than it -/
structure Replaying (w : World) (upTo : Nat) : Prop where
  served : upTo ≤ w.emitted
  flight : ∀ e, some e ∈ w.shown ++ w.inFlight → e ≤ upTo
  invalid : w.tracker.Invalid
  queued : ∃ pre post, w.queue = pre ++ .replay upTo :: post ∧
    (∀ x ∈ pre, x.isReplay = false) ∧ ∀ x ∈ post, x.isReplay = false ∧ x.isChunk = false

structure Flow (w : World) : Prop where
  come : w.delivered ≤ w.stream.length
  increasing : ∀ i j a b, i < j → w.endAt i = some a → w.endAt j = some b → a < b
  bounded : ∀ i e, w.endAt i = some e → e ≤ w.emitted
  blanks : ∀ e ∈ w.blank, ∃ i < w.delivered, w.endAt i = some e
  backlog : ∀ e, some e ∈ w.view.hiddenWriteBuffer.text →
    e ∉ w.blank ∧ ∃ i < w.delivered, w.endAt i = some e
  flight : ∀ e, some e ∈ w.inFlight → e ≤ w.emitted
  gate : w.view.core ≠ none → w.view.resyncActive = true
  answer : isRequested w.view = false → w.response = none
  served : ∀ upTo, w.response = some upTo → upTo ≤ w.emitted ∧ ∀ e, some e ∈ w.inFlight → e ≤ upTo
  replaying : ∀ id upTo, w.view.core = some ⟨id, .replaying upTo⟩ → Replaying w upTo
  noReplay : (∀ id upTo, w.view.core ≠ some ⟨id, .replaying upTo⟩) →
    ∀ x ∈ w.queue, x.isReplay = false

structure Marks (w : World) (r m : Nat) : Prop where
  written : m ≤ r
  received : r ≤ w.emitted
  base : w.shownBase ≤ r
  complete : ∀ i e, w.endAt i = some e → e ≤ r → e ≤ w.shownBase ∨ some e ∈ w.shown ∨ e ∈ w.blank ∨
    ∃ data, .chunk data e ∈ w.queue ∧ some e ∈ data
  exact : ∀ e, some e ∈ w.shown ++ w.inFlight ++ w.view.hiddenWriteBuffer.text → e ≤ r
  since : w.NothingSince r
  order : w.queue.Pairwise fun x y => ∀ d d' e e', x = .chunk d e → y = .chunk d' e' → e < e'
  queued : ∀ data e, .chunk data e ∈ w.queue → m < e ∧ e ≤ r

def Anchored (w : World) : Prop :=
  ∀ entry, w.tracker = some entry → entry.valid = true → entry.checkpointEpoch ≠ none →
    ∃ r m, entry.lastReceivedEndSeq = some r ∧ entry.lastWrittenEndSeq = some m ∧ Marks w r m

theorem Anchored.imp (h : Anchored w) {w' : World} (ht : w'.tracker = w.tracker)
    (hm : ∀ r m, Marks w r m → Marks w' r m) : Anchored w' := by
  intro entry he hv hepoch
  obtain ⟨r, m, hr, hw, hmarks⟩ := h entry (ht ▸ he) hv hepoch
  exact ⟨r, m, hr, hw, hm r m hmarks⟩

structure AnchorInv (w : World) : Prop where
  flow : Flow w
  anchored : Anchored w

theorem AnchorInv.sound (h : AnchorInv w) : AnchorSound w := by
  intro candidate hc
  obtain ⟨entry, ht, hv, hr, hm, he⟩ := SeqTracker.anchorCandidate_eq_some.mp hc
  obtain ⟨r, m, hr', hm', hmarks⟩ := h.anchored entry ht hv (by simp [he])
  obtain rfl : candidate.anchorSeq = r := some.inj (hr.symm.trans hr')
  obtain rfl : candidate.anchorSeq = m := some.inj (hm.symm.trans hm')
  refine ⟨hmarks.base, fun i e hi hle => ?_, fun e he => hmarks.exact e ?_⟩
  · rcases hmarks.complete i e hi hle with hb | hs | hbl | ⟨data, hq, _⟩
    · exact .inl hb
    · exact .inr (.inl hs)
    · exact .inr (.inr hbl)
    · have := hmarks.queued data e hq
      omega
  · rcases mem_append.mp he with he | he
    · exact mem_append_left _ (mem_append_left _ he)
    · exact mem_append_left _ (mem_append_right _ (mem_append_left _ he))

/-! ## steps of the view -/

structure Quiet (v v' : ResyncView (Option Nat)) (extra : List Write) : Prop where
  texts : ∀ x ∈ extra, x.isReplay = false ∧ x.isChunk = false
  backlog : ∀ u ∈ v'.hiddenWriteBuffer.text, u ∈ v.hiddenWriteBuffer.text
  flight : ∀ u ∈ extra.flatMap Write.data ++ v'.flushes.waitingText,
    u = none ∨ u ∈ v.flushes.waitingText ∨ (u ∈ v.hiddenWriteBuffer.text ∧
      isRequested v = false ∧ ∀ id upTo, v.core ≠ some ⟨id, .replaying upTo⟩)
  gate : v'.core ≠ none → v'.resyncActive = true
  requested : isRequested v' = false → isRequested v = false
  replaying : ∀ id upTo, v'.core = some ⟨id, .replaying upTo⟩ ↔ v.core = some ⟨id, .replaying upTo⟩

theorem handed_append (q extra : List Write) :
    (q ++ extra).flatMap Write.data = q.flatMap Write.data ++ extra.flatMap Write.data := by
  rw [flatMap_append]

theorem inFlight_quiet (hq : Quiet w.view v' extra) {e : Nat}
    (he : some e ∈ ({ w with view := v', queue := w.queue ++ extra } : World).inFlight) :
    some e ∈ w.inFlight ∨ (some e ∈ w.view.hiddenWriteBuffer.text ∧ isRequested w.view = false ∧
      ∀ id upTo, w.view.core ≠ some ⟨id, .replaying upTo⟩) := by
  have he' : some e ∈ (w.queue ++ extra).flatMap Write.data ++ v'.flushes.waitingText := he
  rw [handed_append, append_assoc] at he'
  rcases mem_append.mp he' with he' | he'
  · exact .inl (mem_append_left _ he')
  rcases hq.flight _ he' with hn | hw | hb
  · cases hn
  · exact .inl (mem_append_right _ hw)
  · exact .inr hb

theorem Flow.quiet (h : Flow w) (hq : Quiet w.view v' extra) :
    Flow { w with view := v', queue := w.queue ++ extra } := { h with
  backlog e he := h.backlog e (hq.backlog _ he)
  flight e he := by
    rcases inFlight_quiet hq he with he | ⟨he, _⟩
    · exact h.flight e he
    · obtain ⟨_, i, _, hi⟩ := h.backlog e he
      exact h.bounded i e hi
  gate := hq.gate
  answer hr := h.answer (hq.requested hr)
  served upTo hu := by
    refine ⟨(h.served upTo hu).1, fun e he => ?_⟩
    rcases inFlight_quiet hq he with he | ⟨_, hr, _⟩
    · exact (h.served upTo hu).2 e he
    · cases (h.answer hr).symm.trans hu
  replaying id upTo hc := by
    have hc' := (hq.replaying id upTo).mp hc
    obtain ⟨hs, hf, hi, pre, post, hqueue, hpre, hpost⟩ := h.replaying id upTo hc'
    refine ⟨hs, fun e he => ?_, hi, pre, post ++ extra, ?_, hpre, fun x hx => ?_⟩
    · rcases mem_append.mp he with he | he
      · exact hf e (mem_append_left _ he)
      · rcases inFlight_quiet hq he with he | ⟨_, _, hn⟩
        · exact hf e (mem_append_right _ he)
        · exact absurd hc' (hn id upTo)
    · show w.queue ++ extra = _
      rw [hqueue, append_assoc, cons_append]
    · exact (mem_append.mp hx).elim (hpost x) (hq.texts x)
  noReplay hn x hx := by
    rcases mem_append.mp hx with hx | hx
    · exact h.noReplay (fun id upTo hc => hn id upTo ((hq.replaying id upTo).mpr hc)) x hx
    · exact (hq.texts x hx).1 }

theorem Marks.quiet {r m : Nat} (h : Marks w r m) (hq : Quiet w.view v' extra) :
    Marks { w with view := v', queue := w.queue ++ extra } r m := { h with
  complete i e hi hle := by
    rcases h.complete i e hi hle with hb | hs | hbl | ⟨data, hmem, hd⟩
    · exact .inl hb
    · exact .inr (.inl hs)
    · exact .inr (.inr (.inl hbl))
    · exact .inr (.inr (.inr ⟨data, mem_append_left _ hmem, hd⟩))
  exact e he := by
    rcases mem_append.mp he with he | he
    · rcases mem_append.mp he with he | he
      · exact h.exact e (mem_append_left _ (mem_append_left _ he))
      · rcases inFlight_quiet hq he with he | ⟨he, _⟩
        · exact h.exact e (mem_append_left _ (mem_append_right _ he))
        · exact h.exact e (mem_append_right _ he)
    · exact h.exact e (mem_append_right _ (hq.backlog _ he))
  order := by
    refine pairwise_append.mpr ⟨h.order, ?_, fun x _ y hy d d' e e' _ hy' => ?_⟩
    · refine pairwise_of_forall_mem_list (fun x hx y _ d d' e e' hx' _ => ?_)
      exact absurd (hq.texts x hx).2 (by simp [hx', Write.isChunk])
    · exact absurd (hq.texts y hy).2 (by simp [hy', Write.isChunk])
  queued data e hx := by
    rcases mem_append.mp hx with hx | hx
    · exact h.queued data e hx
    · exact absurd (hq.texts _ hx).2 (by simp [Write.isChunk]) }

theorem AnchorInv.quiet (h : AnchorInv w) (hq : Quiet w.view v' extra) :
    AnchorInv { w with view := v', queue := w.queue ++ extra } where
  flow := h.flow.quiet hq
  anchored := h.anchored.imp rfl fun _ _ hmarks => hmarks.quiet hq

theorem Quiet.frame (hc : v'.core = v.core)
    (hgate : v'.core ≠ none → v'.resyncActive = true)
    (hb : ∀ u ∈ v'.hiddenWriteBuffer.text, u ∈ v.hiddenWriteBuffer.text)
    (hf : ∀ u ∈ v'.flushes.waitingText, u ∈ v.flushes.waitingText ∨
      (u ∈ v.hiddenWriteBuffer.text ∧ v.core = none)) : Quiet v v' [] where
  texts _ hx := nomatch hx
  backlog := hb
  flight u hu := .inr ((hf u hu).imp id fun ⟨hu, hn⟩ =>
    ⟨hu, by simp [isRequested, hn], by simp [hn]⟩)
  gate := hgate
  requested hr := by rw [← hr, isRequested, isRequested, hc]
  replaying id upTo := by rw [hc]

theorem Quiet.advance (hn : ∀ id upTo, v.core ≠ some ⟨id, .replaying upTo⟩)
    (hn' : ∀ id upTo, v'.core ≠ some ⟨id, .replaying upTo⟩) (hr : isRequested v = false)
    (hgate : v'.core ≠ none → v'.resyncActive = true)
    (hb : ∀ u ∈ v'.hiddenWriteBuffer.text, u ∈ v.hiddenWriteBuffer.text)
    (hf : ∀ u ∈ v'.flushes.waitingText, u ∈ v.flushes.waitingText ∨ u ∈ v.hiddenWriteBuffer.text) :
    Quiet v v' [] where
  texts _ hx := nomatch hx
  backlog := hb
  flight u hu := .inr ((hf u hu).imp id fun hu => ⟨hu, hr, hn⟩)
  gate := hgate
  requested _ := hr
  replaying id upTo := iff_of_false (hn' id upTo) (hn id upTo)

section
variable (hgate : v.core ≠ none → v.resyncActive = true)
include hgate

theorem Quiet.refl : Quiet v v [] :=
  Quiet.frame rfl hgate (fun _ hu => hu) fun _ hu => .inl hu

theorem quiet_desyncHandler :
    Quiet v v.desyncHandler [] := by
  by_cases hc : v.core = none
  · rcases desyncHandler_of_idle hc with ⟨_, heq⟩ | ⟨_, heq⟩
    · rw [heq]
      exact Quiet.advance (by simp [hc]) (by simp) (by simp [isRequested, hc]) (fun _ => rfl)
        (fun _ hu => hu) fun _ hu => .inl hu
    · rw [heq]
      exact Quiet.frame rfl (fun _ => rfl) (fun _ hu => absurd hu (by
        simp [HiddenWriteBuffer.reset])) fun _ hu => .inl hu
  · rw [desyncHandler_of_busy hc]
    exact Quiet.refl hgate

theorem quiet_prepare : Quiet v v.prepare [] := by
  rcases prepare_cases v with heq | ⟨id, hc, heq⟩
  · rw [heq]
    exact Quiet.refl hgate
  · rw [heq]
    exact Quiet.advance (by simp [hc]) (by simp [setPhase]) (by simp [isRequested, hc])
      (fun _ => hgate (by simp [hc])) (nofun) fun _ hu => .inl hu

theorem quiet_send : Quiet v v.send.1 [] := by
  rcases send_cases v with heq | ⟨id, hc, heq⟩
  · rw [heq]
    exact Quiet.refl hgate
  · rw [heq]
    exact Quiet.advance (by simp [hc]) (by simp [setPhase]) (by simp [isRequested, hc])
      (fun _ => hgate (by simp [hc])) (fun _ hu => hu) fun _ hu => .inl hu

theorem quiet_groundDone :
    Quiet v v.groundDone [] := by
  rcases groundDone_cases v with heq | ⟨id, hc, heq⟩
  · rw [heq]
    exact Quiet.refl hgate
  · rw [heq]
    exact Quiet.advance (by simp [hc]) (by simp [setPhase]) (by simp [isRequested, hc])
      (fun _ => hgate (by simp [hc])) (fun _ hu => hu) fun _ hu => .inl hu

theorem quiet_flush :
    Quiet v (v.flushHiddenWrites ownText).1 [] := by
  rcases flushHiddenWrites_cases ownText v with heq | ⟨hg, _, heq | heq⟩
  · rw [heq]
    exact quiet_desyncHandler hgate
  · rw [heq]
    exact Quiet.refl hgate
  rw [heq]
  have hc : v.core = none := by
    by_cases hc : v.core = none
    · exact hc
    · cases hg.symm.trans (hgate hc)
  refine Quiet.frame rfl hgate (nofun) fun u hu => ?_
  have hu' : u ∈ (v.flushes.add v.hiddenWriteBuffer.text).waitingText := hu
  rw [FlushChain.waitingText_add] at hu'
  exact (mem_append.mp hu').imp id fun hu => ⟨hu, hc⟩

theorem quiet_settle :
    Quiet v (v.settle ownText) [] := by
  rcases settle_cases ownText v with heq | ⟨id, resynced, hc, hcases⟩
  · rw [heq]
    exact Quiet.refl hgate
  have hn : ∀ id' upTo, v.core ≠ some ⟨id', .replaying upTo⟩ := by simp [hc]
  have hr : isRequested v = false := by simp [isRequested, hc]
  rcases hcases with heq | ⟨_, awaits, heq | heq⟩
  · rw [heq]
    rcases desyncHandler_of_idle (v := { v with core := none, resyncActive := false }) rfl with
      ⟨_, heq'⟩ | ⟨_, heq'⟩
    · rw [heq']
      exact Quiet.advance hn (by simp) hr (fun _ => rfl) (fun _ hu => hu) fun _ hu => .inl hu
    · rw [heq']
      exact Quiet.advance hn (by simp) hr (fun _ => rfl) (fun _ hu => absurd hu (by
        simp [HiddenWriteBuffer.reset])) fun _ hu => .inl hu
  · rw [heq]
    exact Quiet.advance hn (by simp) hr (by simp) (fun _ hu => hu) fun _ hu => .inl hu
  · rw [heq]
    refine Quiet.advance hn (by simp) hr (by simp) (nofun) fun u hu => ?_
    have hu' : u ∈ (v.flushes.add v.hiddenWriteBuffer.text).waitingText := hu
    rw [FlushChain.waitingText_add] at hu'
    exact mem_append.mp hu'

end

variable {epoch : Nat}

theorem AnchorInv.gate (h : AnchorInv w) : w.view.core ≠ none → w.view.resyncActive = true :=
  h.flow.gate

theorem AnchorInv.view_nil (h : AnchorInv w) (hq : Quiet w.view v' []) :
    AnchorInv { w with view := v' } := by
  have h' := h.quiet hq
  rwa [append_nil] at h'

theorem quiet_startFlush (hgate : w.view.core ≠ none → w.view.resyncActive = true) (k : Nat) :
    Quiet w.view { w.view with flushes := (w.view.flushes.start k).1 }
      ((w.view.flushes.start k).2.elim [] fun pending => [.text pending]) where
  texts x hx := by
    cases hs : (w.view.flushes.start k).2 with
    | none =>
      rw [hs] at hx
      cases hx
    | some =>
      rw [hs] at hx
      obtain rfl := mem_singleton.mp hx
      exact ⟨rfl, rfl⟩
  backlog _ hu := hu
  flight u hu := by
    refine .inr (.inl (FlushChain.mem_waitingText_of_start (k := k) ?_))
    cases hs : (w.view.flushes.start k).2 with
    | none =>
      rw [hs] at hu
      exact hu
    | some =>
      rw [hs] at hu
      simpa [Write.data] using hu
  gate := hgate
  requested := id
  replaying _ _ := Iff.rfl

theorem quiet_settled (hgate : w.view.core ≠ none → w.view.resyncActive = true) (i : Nat) :
    Quiet w.view { w.view with settling := w.view.settling.eraseIdx i } [.text ownText] where
  texts x hx := by
    obtain rfl := mem_singleton.mp hx
    exact ⟨rfl, rfl⟩
  backlog _ hu := hu
  flight u hu := by
    rcases mem_append.mp hu with hu | hu
    · exact .inl (by simpa [Write.data, ownText] using hu)
    · exact .inr (.inl hu)
  gate := hgate
  requested := id
  replaying _ _ := Iff.rfl

theorem AnchorInv.startFlush (h : AnchorInv w) (k : Nat) :
    AnchorInv (w.step epoch (.view (.startFlush k))) := by
  have hq := h.quiet (quiet_startFlush h.gate k)
  show AnchorInv (w.record epoch (w.view.startFlush k))
  rw [startFlush_eq]
  cases hs : (w.view.flushes.start k).2 with
  | none =>
    rw [hs, elim_none, append_nil] at hq
    exact hq
  | some =>
    rw [hs] at hq
    exact hq

theorem AnchorInv.settled (h : AnchorInv w) (i : Nat) :
    AnchorInv (w.step epoch (.view (.settled i))) := by
  show AnchorInv (w.record epoch (w.view.settled i))
  rcases settled_cases w.view i with heq | ⟨s, _, heq⟩
  · rw [heq]
    exact h
  rw [heq]
  cases s.resynced with
  | false => exact h.quiet (quiet_settled h.gate i)
  | true =>
    exact h.view_nil (Quiet.frame rfl h.gate (fun _ hu => hu) fun _ hu => .inl hu)

theorem AnchorInv.send (h : AnchorInv w) : AnchorInv (w.step epoch (.view .send)) := by
  have hrecord : w.record epoch w.view.send = { w with view := w.view.send.1 } := by
    rcases send_cases w.view with heq | ⟨id, _, heq⟩ <;> rw [heq] <;> rfl
  show AnchorInv (w.record epoch w.view.send)
  rw [hrecord]
  exact h.view_nil (quiet_send h.gate)

theorem AnchorInv.view (h : AnchorInv w) (a : ViewAction (Option Nat)) :
    AnchorInv (w.step epoch (.view a)) := by
  cases a with
  | output => exact h
  | replayDone => exact h
  | shown =>
    refine h.view_nil ?_
    show Quiet w.view (if w.view.renderVisible then _ else _) []
    by_cases hv : w.view.renderVisible
    · rw [if_pos hv]
      exact Quiet.refl h.gate
    · rw [if_neg hv]
      exact Quiet.frame rfl h.gate (fun _ hu => hu) fun _ hu => .inl hu
  | hidden =>
    exact h.view_nil (Quiet.frame rfl h.gate (fun _ hu => hu) fun _ hu => .inl hu)
  | visibleEdge =>
    refine h.view_nil ?_
    show Quiet w.view (if w.view.edgePending then _ else _) []
    by_cases he : w.view.edgePending
    · rw [if_pos he]
      have hq := quiet_flush (v := { w.view with edgePending := false }) h.gate
      exact ⟨hq.texts, hq.backlog, hq.flight, hq.gate, hq.requested, hq.replaying⟩
    · rw [if_neg he]
      exact Quiet.refl h.gate
  | prepare => exact h.view_nil (quiet_prepare h.gate)
  | send => exact h.send
  | groundDone => exact h.view_nil (quiet_groundDone h.gate)
  | settle => exact h.view_nil (quiet_settle h.gate)
  | startFlush k => exact h.startFlush k
  | finishFlush k =>
    refine h.view_nil (Quiet.frame rfl h.gate (fun _ hu => hu) fun u hu => .inl ?_)
    have hu' : u ∈ (w.view.flushes.finish k).waitingText := hu
    rwa [FlushChain.finish_text] at hu'
  | settled i => exact h.settled i

/-! ## the backend -/

def World.grow (w : World) (x : Emission) (emitted : Nat) : World :=
  { w with emitted := emitted, stream := w.stream ++ [x] }

theorem endAt_grow {emitted i e : Nat} (h : (w.grow x emitted).endAt i = some e) :
    w.endAt i = some e ∨ (i = w.stream.length ∧ x.endSeq = some e) := by
  have h' : (w.stream ++ [x])[i]?.bind Emission.endSeq = some e := h
  rcases Nat.lt_trichotomy i w.stream.length with hi | rfl | hi
  · rw [getElem?_append_left hi] at h'
    exact .inl h'
  · rw [getElem?_concat_length] at h'
    exact .inr ⟨rfl, h'⟩
  · rw [getElem?_eq_none (by simp; omega)] at h'
    cases h'

theorem endAt_lt {i e : Nat} (h : w.endAt i = some e) : i < w.stream.length := by
  obtain ⟨x, hx, _⟩ := bind_eq_some_iff.mp h
  exact (List.getElem?_eq_some_iff.mp hx).1

theorem endAt_of_get {i : Nat} (hx : w.stream[i]? = some x) : w.endAt i = x.endSeq := by
  unfold World.endAt
  rw [hx]
  rfl

theorem endAt_grow_of_lt {emitted i : Nat} (h : i < w.stream.length) :
    (w.grow x emitted).endAt i = w.endAt i := by
  show (w.stream ++ [x])[i]?.bind Emission.endSeq = _
  rw [getElem?_append_left h]
  rfl

theorem Flow.grow (h : Flow w) {emitted : Nat} (hle : w.emitted ≤ emitted)
    (hx : ∀ e, x.endSeq = some e → w.emitted < e ∧ e ≤ emitted) :
    Flow (w.grow x emitted) := { h with
  come := by
    show w.delivered ≤ (w.stream ++ [x]).length
    rw [length_append]
    exact Nat.le_trans h.come (Nat.le_add_right _ _)
  increasing i j a b hij hi hj := by
    rcases endAt_grow hi with hi | ⟨rfl, _⟩
    · rcases endAt_grow hj with hj | ⟨_, hj⟩
      · exact h.increasing i j a b hij hi hj
      · exact Nat.lt_of_le_of_lt (h.bounded i a hi) (hx b hj).1
    · rcases endAt_grow hj with hj | ⟨rfl, _⟩
      · exact absurd (endAt_lt hj) (by omega)
      · exact absurd hij (Nat.lt_irrefl _)
  bounded i e hi := by
    rcases endAt_grow hi with hi | ⟨_, hi⟩
    · exact Nat.le_trans (h.bounded i e hi) hle
    · exact (hx e hi).2
  blanks e he := by
    obtain ⟨i, hi, hie⟩ := h.blanks e he
    exact ⟨i, hi, (endAt_grow_of_lt (endAt_lt hie)).trans hie⟩
  backlog e he := by
    obtain ⟨hn, i, hi, hie⟩ := h.backlog e he
    exact ⟨hn, i, hi, (endAt_grow_of_lt (endAt_lt hie)).trans hie⟩
  flight e he := Nat.le_trans (h.flight e he) hle
  served upTo hu := ⟨Nat.le_trans (h.served upTo hu).1 hle, (h.served upTo hu).2⟩
  replaying id upTo hc := { h.replaying id upTo hc with
    served := Nat.le_trans (h.replaying id upTo hc).served hle } }

theorem AnchorInv.grow (h : AnchorInv w) {emitted : Nat} (hle : w.emitted ≤ emitted)
    (hx : ∀ e, x.endSeq = some e → w.emitted < e ∧ e ≤ emitted) : AnchorInv (w.grow x emitted) where
  flow := h.flow.grow hle hx
  anchored := h.anchored.imp rfl fun r m hmarks => { hmarks with
    received := Nat.le_trans hmarks.received hle
    complete i e hi hle := by
      rcases endAt_grow hi with hi | ⟨_, hi⟩
      · exact hmarks.complete i e hi hle
      · exact absurd hle (Nat.not_le.mpr (Nat.lt_of_le_of_lt hmarks.received (hx e hi).1))
    since i e hi hie hlt := by
      have hi' : i < w.stream.length := Nat.lt_of_lt_of_le hi h.flow.come
      rw [endAt_grow_of_lt hi'] at hie
      exact hmarks.since i e hi hie hlt }

theorem AnchorInv.serve (h : AnchorInv w) : AnchorInv (w.step epoch .serve) := by
  simp only [World.step]
  split
  · next hs =>
    refine ⟨{ h.flow with
      answer hr := nomatch (hs.1.symm.trans hr)
      served upTo hu := ?_
      replaying id upTo hc := { h.flow.replaying id upTo hc with } },
      h.anchored.imp rfl fun _ _ hmarks => { hmarks with }⟩
    cases hu
    exact ⟨Nat.le_refl _, h.flow.flight⟩
  · exact h

/-! ## the terminal -/

theorem Flow.track (h : Flow w) (ht : w.tracker.Invalid → t.Invalid) :
    Flow { w with tracker := t } := { h with
  replaying id upTo hc :=
    { h.replaying id upTo hc with invalid := ht (h.replaying id upTo hc).invalid } }

variable {data : List (Option Nat)}

theorem mem_screen_of_take {x : Write} (hq : w.queue = x :: queue) (hd : ∀ u ∈ data, u ∈ x.data)
    {u : Option Nat}
    (hu : u ∈ (w.shown ++ data) ++ (queue.flatMap Write.data ++ w.view.flushes.waitingText)) :
    u ∈ w.shown ++ w.inFlight := by
  unfold World.inFlight World.handed
  rw [hq, flatMap_cons]
  simp only [mem_append] at hu ⊢
  rcases hu with (hu | hu) | hu | hu
  · exact .inl hu
  · exact .inr (.inl (.inl (hd u hu)))
  · exact .inr (.inl (.inr hu))
  · exact .inr (.inr hu)

theorem Flow.take (h : Flow w) {x : Write} (hq : w.queue = x :: queue) (hx : x.isReplay = false)
    (hd : ∀ u ∈ data, u ∈ x.data) (ht : w.tracker.Invalid → t.Invalid) :
    Flow { w with queue := queue, shown := w.shown ++ data, tracker := t } := by
  have hflight : ∀ e, some e ∈ queue.flatMap Write.data ++ w.view.flushes.waitingText →
      some e ∈ w.inFlight := by
    intro e he
    unfold World.inFlight World.handed
    rw [hq, flatMap_cons, append_assoc]
    exact mem_append_right _ he
  refine ⟨h.come, h.increasing, h.bounded, h.blanks, h.backlog,
    fun e he => h.flight e (hflight e he), h.gate, h.answer,
    fun upTo hu => ⟨(h.served upTo hu).1, fun e he => (h.served upTo hu).2 e (hflight e he)⟩,
    fun id upTo hc => ?_, fun hn y hy => h.noReplay hn y (hq ▸ mem_cons_of_mem _ hy)⟩
  obtain ⟨hs, hf, hi, pre, post, hqueue, hpre, hpost⟩ := h.replaying id upTo hc
  refine ⟨hs, fun e he => hf e (mem_screen_of_take hq hd he), ht hi, ?_⟩
  · rw [hq] at hqueue
    cases pre with
    | nil =>
      obtain ⟨rfl, _⟩ := cons.inj hqueue
      exact absurd hx (by simp [Write.isReplay])
    | cons y pre =>
      obtain ⟨_, rfl⟩ := cons.inj hqueue
      exact ⟨pre, post, rfl, fun z hz => hpre z (mem_cons_of_mem _ hz), hpost⟩

theorem Marks.takeText {r m : Nat} (h : Marks w r m) {text : List (Option Nat)}
    (hq : w.queue = .text text :: queue) (hd : ∀ u ∈ data, u ∈ text) :
    Marks { w with queue := queue, shown := w.shown ++ data } r m := { h with
  complete i e hi hle := by
    rcases h.complete i e hi hle with hb | hs | hbl | ⟨d, hmem, hde⟩
    · exact .inl hb
    · exact .inr (.inl (mem_append_left _ hs))
    · exact .inr (.inr (.inl hbl))
    · rw [hq] at hmem
      rcases mem_cons.mp hmem with hmem | hmem
      · cases hmem
      · exact .inr (.inr (.inr ⟨d, hmem, hde⟩))
  exact e he := (mem_append.mp he).elim
    (fun he => h.exact e (mem_append_left _ (mem_screen_of_take hq hd he)))
    fun he => h.exact e (mem_append_right _ he)
  order := (pairwise_cons.mp (hq ▸ h.order)).2
  queued d e hde := h.queued d e (hq ▸ mem_cons_of_mem _ hde) }

theorem Marks.takeChunk {r m endSeq : Nat} (h : Marks w r m)
    (hq : w.queue = .chunk data endSeq :: queue) (t : SeqTracker) :
    Marks { w with queue := queue, shown := w.shown ++ data, tracker := t } r endSeq := { h with
  written := (h.queued data endSeq (hq ▸ mem_cons_self)).2
  complete i e hi hle := by
    rcases h.complete i e hi hle with hb | hs | hbl | ⟨d, hmem, hde⟩
    · exact .inl hb
    · exact .inr (.inl (mem_append_left _ hs))
    · exact .inr (.inr (.inl hbl))
    · rw [hq] at hmem
      rcases mem_cons.mp hmem with hmem | hmem
      · obtain ⟨rfl, rfl⟩ := Write.chunk.inj hmem
        exact .inr (.inl (mem_append_right _ hde))
      · exact .inr (.inr (.inr ⟨d, hmem, hde⟩))
  exact e he := (mem_append.mp he).elim
    (fun he => h.exact e (mem_append_left _ (mem_screen_of_take hq (fun _ hu => hu) he)))
    fun he => h.exact e (mem_append_right _ he)
  order := (pairwise_cons.mp (hq ▸ h.order)).2
  queued d e hde := by
    have hp := h.order
    rw [hq] at hp
    have hord := (pairwise_cons.mp hp).1 (.chunk d e) hde data d endSeq e rfl rfl
    exact ⟨hord, (h.queued d e (hq ▸ mem_cons_of_mem _ hde)).2⟩ }

theorem Flow.takeReplay (h : Flow w) {upTo upTo' : Nat} {id : Nat}
    (hq : w.queue = .replay upTo :: queue) (hc : w.view.core = some ⟨id, .replaying upTo'⟩)
    (resynced : Bool) (shownBase : Nat) (t : SeqTracker) :
    upTo = upTo' ∧ (∀ x ∈ queue, x.isChunk = false) ∧
      Flow { w with
        queue := queue
        shownBase := shownBase
        view := w.view.setPhase id (.restored resynced)
        tracker := t } := by
  obtain ⟨_, _, _, pre, post, hqueue, hpre, hpost⟩ := h.replaying id upTo' hc
  rw [hq] at hqueue
  cases pre with
  | cons =>
    obtain ⟨rfl, _⟩ := cons.inj hqueue
    exact absurd (hpre _ mem_cons_self) (by simp [Write.isReplay])
  | nil =>
  obtain ⟨hx, rfl⟩ := cons.inj hqueue
  have hflight : ∀ e, some e ∈ queue.flatMap Write.data ++ w.view.flushes.waitingText →
      some e ∈ w.inFlight := by
    intro e he
    unfold World.inFlight World.handed
    rw [hq]
    exact he
  have hr : w.response = none := h.answer (by simp [isRequested, hc])
  refine ⟨Write.replay.inj hx, fun x hx => (hpost x hx).2, h.come, h.increasing, h.bounded,
    h.blanks, h.backlog, fun e he => h.flight e (hflight e he), fun _ => h.gate (by simp [hc]),
    fun _ => hr, fun upTo hu => absurd (hr.symm.trans hu) (by simp), fun id' upTo hc' => ?_,
    fun _ x hx => (hpost x hx).1⟩
  exact absurd hc' (by simp [setPhase])

theorem Flow.replaying_of_queue (h : Flow w) (hq : w.queue = .replay upTo :: queue) :
    ∃ id upTo', w.view.core = some ⟨id, .replaying upTo'⟩ := by
  by_cases hn : ∃ id upTo', w.view.core = some ⟨id, .replaying upTo'⟩
  · exact hn
  · have hno := h.noReplay (fun id upTo' hc => hn ⟨id, upTo', hc⟩) _ (hq ▸ mem_cons_self)
    exact absurd hno (by simp [Write.isReplay])

theorem replayDone_of_replaying {id upTo : Nat} (hc : v.core = some ⟨id, .replaying upTo⟩)
    (ok : Bool) :
    v.replayDone ok = (v.setPhase id (.restored ok), if ok then [.replayed id upTo] else []) := by
  unfold replayDone
  rw [hc]

theorem AnchorInv.reanchor (h : AnchorInv w) (hq : w.queue = .replay upTo :: queue)
    (hsince : w.NothingSince upTo) :
    AnchorInv ({ w with queue := queue, shownBase := upTo }.record epoch
      (w.view.replayDone true)) := by
  obtain ⟨id, upTo', hc⟩ := h.flow.replaying_of_queue hq
  have hflow := h.flow.takeReplay hq hc true upTo (reanchorAfterRecovery epoch w.tracker upTo')
  obtain ⟨rfl, hchunk, hflow⟩ := hflow
  rw [replayDone_of_replaying hc]
  refine ⟨hflow, fun entry ht hv he => ?_⟩
  obtain ⟨hs, hf, hi, _⟩ := h.flow.replaying id upTo hc
  have ht' : reanchorAfterRecovery epoch w.tracker upTo = some entry := ht
  unfold reanchorAfterRecovery at ht'
  split at ht'
  · exact absurd (hi.not_valid ht') (by simp [hv])
  cases ht'
  refine ⟨upTo, upTo, rfl, rfl, Nat.le_refl _, hs, Nat.le_refl _, fun i e _ hle => .inl hle,
    fun e he => ?_, hsince, ?_, fun data e hmem => absurd (hchunk _ hmem) (by simp [Write.isChunk])⟩
  · rcases mem_append.mp he with he | he
    · refine hf e ?_
      unfold World.inFlight World.handed
      rw [hq]
      exact he
    -- a chunk of the backlog has come, and did not render to nothing
    obtain ⟨hnb, i, hi', hie⟩ := h.flow.backlog e he
    rcases Nat.lt_or_ge upTo e with hlt | hle
    · exact absurd (hsince i e hi' hie hlt) hnb
    · exact hle
  · refine pairwise_of_forall_mem_list fun x hx y _ d d' e e' hx' _ => ?_
    exact absurd (hchunk x hx) (by simp [hx', Write.isChunk])

theorem AnchorInv.parse (h : AnchorInv w) (hcare : Careful w .parse) :
    AnchorInv (w.step epoch .parse) := by
  show AnchorInv (w.parse epoch)
  unfold World.parse
  split
  · exact h
  · next data endSeq queue hq =>
    refine ⟨h.flow.take hq rfl (fun _ hu => hu) fun hi => hi.noteWritten endSeq,
      fun entry' ht hv he => ?_⟩
    obtain ⟨entry, hold, hv', he'⟩ := SeqTracker.noteWritten_kept ht he
    obtain ⟨r, m, hr, hm, hmarks⟩ := h.anchored entry hold (hv'.trans hv) (he' ▸ he)
    have hlater := (hmarks.queued data endSeq (hq ▸ mem_cons_self)).1
    have hnew := SeqTracker.noteWritten_later hold
      (fun last hl => some.inj (hm.symm.trans hl) ▸ hlater)
    cases hnew.symm.trans ht
    exact ⟨r, endSeq, hr, rfl, hmarks.takeChunk hq _⟩
  · next data queue hq =>
    exact ⟨h.flow.take hq rfl (fun _ hu => hu) id,
      h.anchored.imp rfl fun _ _ hmarks => hmarks.takeText hq fun _ hu => hu⟩
  · next upTo queue hq => exact h.reanchor hq (hcare upTo queue hq)

theorem AnchorInv.fail (h : AnchorInv w) : AnchorInv (w.step epoch .fail) := by
  show AnchorInv (w.fail epoch)
  unfold World.fail
  split
  · exact h
  · next data endSeq queue hq =>
    have hflow := h.flow.take hq rfl (fun u (hu : u ∈ []) => nomatch hu)
      fun hi => hi.invalidateSeq
    rw [append_nil] at hflow
    refine ⟨hflow, fun entry ht hv _ => ?_⟩
    exact absurd (SeqTracker.invalidateSeq_not_valid ht) (by simp [hv])
  · next data queue hq =>
    have hflow := h.flow.take hq rfl (fun u (hu : u ∈ []) => nomatch hu) id
    rw [append_nil] at hflow
    refine ⟨hflow, h.anchored.imp rfl fun r m hmarks => ?_⟩
    have hmarks' := hmarks.takeText hq fun u (hu : u ∈ []) => nomatch hu
    rwa [append_nil] at hmarks'
  · next upTo queue hq =>
    obtain ⟨id, upTo', hc⟩ := h.flow.replaying_of_queue hq
    obtain ⟨_, _, hflow⟩ := h.flow.takeReplay hq hc false w.shownBase w.tracker
    rw [replayDone_of_replaying hc]
    refine ⟨hflow, fun entry ht hv _ => ?_⟩
    exact absurd ((h.flow.replaying id upTo' hc).invalid.not_valid ht) (by simp [hv])

theorem core_of_isRequested (h : isRequested v = true) : ∃ id, v.core = some ⟨id, .requested⟩ := by
  unfold isRequested at h
  split at h
  · next id hc => exact ⟨id, hc⟩
  · cases h

theorem AnchorInv.respondSome (h : AnchorInv w) (hr : w.response = some upTo) (ht : t.Invalid) :
    AnchorInv ({ w with response := none, tracker := t }.record epoch
      (w.view.respond (some upTo))) := by
  obtain ⟨hle, hserved⟩ := h.flow.served upTo hr
  obtain ⟨id, hc⟩ : ∃ id, w.view.core = some ⟨id, .requested⟩ := by
    refine core_of_isRequested ?_
    by_cases hreq : isRequested w.view = true
    · exact hreq
    · exact absurd ((h.flow.answer (Bool.eq_false_iff.mpr hreq)).symm.trans hr) (by simp)
  have heq : w.view.respond (some upTo)
      = (w.view.setPhase id (.replaying upTo), [.reset id, .replay id upTo]) := by
    unfold respond
    rw [hc]
  rw [heq]
  have hhanded : (w.queue ++ [Write.replay upTo]).flatMap Write.data = w.handed := by
    rw [handed_append]
    exact append_nil _
  have hflight : ∀ e, some e ∈ (w.queue ++ [Write.replay upTo]).flatMap Write.data ++
      w.view.flushes.waitingText → some e ∈ w.inFlight := by
    intro e he
    rw [hhanded] at he
    exact he
  refine ⟨⟨h.flow.come, h.flow.increasing, h.flow.bounded, h.flow.blanks, h.flow.backlog,
    fun e he => h.flow.flight e (hflight e he), fun _ => h.flow.gate (by simp [hc]), fun _ => rfl,
    fun _ hu => (nomatch hu), fun id' upTo' hc' => ?_, fun hn => absurd rfl (hn id upTo)⟩,
    fun entry ht' hv _ => absurd (ht.not_valid ht') (by simp [hv])⟩
  have hc'' : some (CoreResync.mk id (.replaying upTo)) = some ⟨id', .replaying upTo'⟩ := hc'
  obtain rfl := ResyncPhase.replaying.inj (CoreResync.mk.inj (some.inj hc'')).2
  exact ⟨hle, fun e he => hserved e (hflight e he), ht, w.queue, [], rfl,
    h.flow.noReplay (by simp [hc]), nofun⟩

theorem AnchorInv.handText (h : AnchorInv w) : AnchorInv (w.write (.text ownText)) := by
  refine h.quiet ⟨fun x hx => ?_, fun _ hu => hu, fun u hu => ?_, h.gate, id, fun _ _ => Iff.rfl⟩
  · obtain rfl := mem_singleton.mp hx
    exact ⟨rfl, rfl⟩
  · rcases mem_append.mp hu with hu | hu
    · exact .inl (by simpa [Write.data, ownText] using hu)
    · exact .inr (.inl hu)

theorem AnchorInv.unanswered (h : AnchorInv w) {core : Option CoreResync}
    (hgate : core ≠ none → w.view.resyncActive = true)
    (hn : ∀ id upTo, w.view.core = some ⟨id, .replaying upTo⟩ ↔ core = some ⟨id, .replaying upTo⟩) :
    AnchorInv { w with response := none, view := { w.view with core := core } } where
  flow := { h.flow with
    gate := hgate
    answer _ := rfl
    served _ hu := nomatch hu
    replaying id upTo hc := { h.flow.replaying id upTo ((hn id upTo).mpr hc) with }
    noReplay hno := h.flow.noReplay fun id upTo hc => hno id upTo ((hn id upTo).mp hc) }
  anchored := h.anchored.imp rfl fun _ _ hmarks => { hmarks with }

theorem AnchorInv.respondNone (h : AnchorInv w) :
    AnchorInv ({ w with response := none }.record epoch (w.view.respond none)) := by
  rcases respond_cases w.view none with heq | ⟨id, hc, ⟨_, hu, _⟩ | ⟨_, heq⟩⟩
  · rw [heq]
    exact h.unanswered h.gate fun _ _ => Iff.rfl
  · cases hu
  rw [heq]
  refine h.handText.unanswered (fun _ => h.gate (by simp [hc])) fun id' upTo => ?_
  have hc' : (w.write (.text ownText)).view.core = some ⟨id, .requested⟩ := hc
  simp [hc']

theorem AnchorInv.respond (h : AnchorInv w) {arrived : Bool}
    (hcare : Careful w (.respond arrived)) : AnchorInv (w.step epoch (.respond arrived)) := by
  show AnchorInv (w.respond epoch arrived)
  unfold World.respond
  split
  · exact h
  · next upTo hr =>
    have hi : w.tracker.Invalid := hcare (by simp [hr])
    refine h.respondSome hr ?_
    split
    · exact hi
    · exact hi.noteEpoch epoch
  · exact h.respondNone

/-! ## chunks and signals -/

theorem Flow.arrive (h : Flow w) (hx : w.stream[w.delivered]? = some x) :
    Flow { w with delivered := w.delivered + 1 } := { h with
  come := (List.getElem?_eq_some_iff.mp hx).1
  blanks e he := by
    obtain ⟨i, hi, hie⟩ := h.blanks e he
    exact ⟨i, Nat.lt_succ_of_lt hi, hie⟩
  backlog e he := by
    obtain ⟨hn, i, hi, hie⟩ := h.backlog e he
    exact ⟨hn, i, Nat.lt_succ_of_lt hi, hie⟩
  replaying id upTo hc := { h.replaying id upTo hc with } }

theorem anchored_of_invalidated (t : SeqTracker) (ht : w.tracker = t.invalidateSeq) :
    Anchored w :=
  fun entry he hv _ => by
    rw [ht] at he
    exact absurd (SeqTracker.invalidateSeq_not_valid he) (by simp [hv])

theorem AnchorInv.dispatchDesync (h : AnchorInv w) (hx : w.stream[w.delivered]? = some x)
    (hasTerm : Bool) :
    AnchorInv ({ w with delivered := w.delivered + 1 }.dispatchDesync hasTerm) := by
  have h' : AnchorInv { w with
      delivered := w.delivered + 1
      tracker := w.tracker.invalidateSeq } :=
    ⟨(h.flow.arrive hx).track fun hi => hi.invalidateSeq, anchored_of_invalidated w.tracker rfl⟩
  cases hasTerm with
  | false => exact h'
  | true => exact h'.view_nil (quiet_desyncHandler h'.gate)

theorem Marks.arrive {r m endSeq : Nat} (h : Marks w r m) (hflow : Flow w)
    (hx : w.stream[w.delivered]? = some (.chunk endSeq)) :
    (∀ i e, w.endAt i = some e → e ≤ endSeq → e ≠ endSeq → e ≤ w.shownBase ∨ some e ∈ w.shown ∨
      e ∈ w.blank ∨ ∃ data, .chunk data e ∈ w.queue ∧ some e ∈ data) ∧
    ∀ i e, i < w.delivered + 1 → w.endAt i = some e → e ≤ endSeq := by
  have hend : w.endAt w.delivered = some endSeq := endAt_of_get hx
  refine ⟨fun i e hi hle hne => ?_, fun i e hi hie => ?_⟩
  · rcases Nat.lt_or_ge r e with hre | hre
    · have hid : i < w.delivered := by
        rcases Nat.lt_trichotomy i w.delivered with hid | rfl | hid
        · exact hid
        · exact absurd (some.inj (hi.symm.trans hend)) hne
        · have := hflow.increasing _ _ _ _ hid hend hi
          omega
      exact .inr (.inr (.inl (h.since i e hid hi hre)))
    · exact h.complete i e hi hre
  · rcases Nat.lt_or_eq_of_le (Nat.le_of_lt_succ hi) with hid | rfl
    · exact Nat.le_of_lt (hflow.increasing _ _ _ _ hid hie hend)
    · exact Nat.le_of_eq (some.inj (hie.symm.trans hend))

variable {endSeq : Nat}

theorem AnchorInv.received (h : AnchorInv w) {entry' : SeqTrackerEntry}
    (ht : w.tracker.noteReceived endSeq = some entry') (hv : entry'.valid = true)
    (he : entry'.checkpointEpoch ≠ none) :
    ∃ r m, entry'.lastReceivedEndSeq = some endSeq ∧ entry'.lastWrittenEndSeq = some m ∧
      r < endSeq ∧ Marks w r m ∧ (w.tracker.any SeqTrackerEntry.valid) = true := by
  obtain ⟨entry, hold, hv', rfl, hlt⟩ := SeqTracker.noteReceived_valid ht hv he
  obtain ⟨r, m, hr, hm, hmarks⟩ := h.anchored entry hold hv' he
  exact ⟨r, m, rfl, hm, hlt r hr, hmarks, by rw [hold]; exact hv'⟩

section
variable (h : AnchorInv w) (hx : w.stream[w.delivered]? = some (.chunk endSeq))
include h hx

theorem AnchorInv.blank
    (hcare : (w.tracker.any SeqTrackerEntry.valid) = true → ∀ x ∈ w.queue, x.isChunk = false) :
    AnchorInv { w with
      delivered := w.delivered + 1
      tracker := (w.tracker.noteReceived endSeq).noteWritten endSeq
      blank := w.blank ++ [endSeq] } := by
  have hend : w.endAt w.delivered = some endSeq := endAt_of_get hx
  have harrive := h.flow.arrive hx
  refine ⟨⟨harrive.come, harrive.increasing, harrive.bounded, fun e he => ?_, fun e he => ?_,
    harrive.flight, harrive.gate, harrive.answer, harrive.served, fun id upTo hc => ?_,
    harrive.noReplay⟩, fun entry' ht hv he => ?_⟩
  · rcases mem_append.mp he with he | he
    · exact harrive.blanks e he
    · obtain rfl := mem_singleton.mp he
      exact ⟨w.delivered, Nat.lt_succ_self _, hend⟩
  · obtain ⟨hn, i, hi, hie⟩ := h.flow.backlog e he
    refine ⟨fun hmem => ?_, i, Nat.lt_succ_of_lt hi, hie⟩
    rcases mem_append.mp hmem with hmem | hmem
    · exact hn hmem
    · obtain rfl := mem_singleton.mp hmem
      exact absurd (h.flow.increasing _ _ _ _ hi hie hend) (Nat.lt_irrefl _)
  · obtain ⟨hs, hf, hi, hq⟩ := h.flow.replaying id upTo hc
    exact ⟨hs, hf, (hi.noteReceived endSeq).noteWritten endSeq, hq⟩
  · obtain ⟨entry, hold, hv', he'⟩ := SeqTracker.noteWritten_kept ht he
    obtain ⟨r, m, hr, hm, hlt, hmarks, hvalid⟩ := h.received hold (hv'.trans hv) (he' ▸ he)
    have hm' : m ≤ r := hmarks.written
    have hnew := SeqTracker.noteWritten_later hold
      (fun last hl => some.inj (hm.symm.trans hl) ▸ Nat.lt_of_le_of_lt hm' hlt)
    cases hnew.symm.trans ht
    obtain ⟨hcomplete, hcome⟩ := hmarks.arrive h.flow hx
    have hnone := hcare hvalid
    refine ⟨endSeq, endSeq, hr, rfl, Nat.le_refl _, h.flow.bounded _ _ hend,
      Nat.le_trans hmarks.base (Nat.le_of_lt hlt), fun i e hi hle => ?_,
      fun e he => Nat.le_trans (hmarks.exact e he) (Nat.le_of_lt hlt),
      fun i e hi hie hlt' => absurd (hcome i e hi hie) (Nat.not_le.mpr hlt'), hmarks.order,
      fun data e hmem => absurd (hnone _ hmem) (by simp [Write.isChunk])⟩
    by_cases hne : e = endSeq
    · exact .inr (.inr (.inl (mem_append_right _ (mem_singleton.mpr hne))))
    rcases hcomplete i e hi hle hne with hb | hs | hbl | hq
    · exact .inl hb
    · exact .inr (.inl hs)
    · exact .inr (.inr (.inl (mem_append_left _ hbl)))
    · exact .inr (.inr (.inr hq))

theorem AnchorInv.keep (hb : ∀ u ∈ b.text, u ∈ w.view.hiddenWriteBuffer.text ∨ u = some endSeq) :
    AnchorInv { w with
      delivered := w.delivered + 1
      tracker := (w.tracker.noteReceived endSeq).invalidateSeq
      view := { w.view with hiddenWriteBuffer := b } } := by
  have hend : w.endAt w.delivered = some endSeq := endAt_of_get hx
  have harrive := h.flow.arrive hx
  refine ⟨⟨harrive.come, harrive.increasing, harrive.bounded, harrive.blanks, fun e he => ?_,
    harrive.flight, harrive.gate, harrive.answer, harrive.served, fun id upTo hc => ?_,
    harrive.noReplay⟩, anchored_of_invalidated (w.tracker.noteReceived endSeq) rfl⟩
  · rcases hb _ he with he | he
    · exact harrive.backlog e he
    obtain rfl := some.inj he
    refine ⟨fun hmem => ?_, w.delivered, Nat.lt_succ_self _, hend⟩
    obtain ⟨i, hi, hie⟩ := h.flow.blanks e hmem
    exact absurd (h.flow.increasing _ _ _ _ hi hie hend) (Nat.lt_irrefl _)
  · obtain ⟨hs, hf, hi, hq⟩ := h.flow.replaying id upTo hc
    exact ⟨hs, hf, (hi.noteReceived endSeq).invalidateSeq, hq⟩

theorem AnchorInv.direct (hgate : w.view.resyncActive = false)
    (hb : ∀ u ∈ b.text, u ∈ w.view.hiddenWriteBuffer.text)
    (hd : ∀ e, some e ∈ data → some e ∈ w.view.hiddenWriteBuffer.text ∨ e = endSeq)
    (hself : some endSeq ∈ data) :
    AnchorInv ({ w with
      delivered := w.delivered + 1
      tracker := w.tracker.noteReceived endSeq
      view := { w.view with hiddenWriteBuffer := b } }.write (.chunk data endSeq)) := by
  have hend : w.endAt w.delivered = some endSeq := endAt_of_get hx
  have hcore : w.view.core = none := by
    by_cases hc : w.view.core = none
    · exact hc
    · exact absurd (hgate.symm.trans (h.flow.gate hc)) (by simp)
  have hresponse : w.response = none := h.flow.answer (by simp [isRequested, hcore])
  have harrive := h.flow.arrive hx
  have hflight : ∀ e, some e ∈ (w.queue ++ [Write.chunk data endSeq]).flatMap Write.data ++
      w.view.flushes.waitingText → some e ∈ w.inFlight ∨
        some e ∈ w.view.hiddenWriteBuffer.text ∨ e = endSeq := by
    intro e he
    rw [handed_append] at he
    rcases mem_append.mp he with he | he
    · rcases mem_append.mp he with he | he
      · exact .inl (mem_append_left _ he)
      · exact .inr (hd e (by simpa [Write.data] using he))
    · exact .inl (mem_append_right _ he)
  refine ⟨⟨harrive.come, harrive.increasing, harrive.bounded, harrive.blanks,
    fun e he => harrive.backlog e (hb _ he), fun e he => ?_, harrive.gate, harrive.answer,
    fun upTo hu => absurd (hresponse.symm.trans hu) (by simp),
    fun id upTo hc => absurd (hcore.symm.trans hc) (by simp), fun hn x hx' => ?_⟩,
    fun entry' ht hv he => ?_⟩
  · rcases hflight e he with he | he | rfl
    · exact h.flow.flight e he
    · obtain ⟨_, i, _, hi⟩ := h.flow.backlog e he
      exact h.flow.bounded i e hi
    · exact h.flow.bounded _ _ hend
  · rcases mem_append.mp hx' with hx' | hx'
    · exact h.flow.noReplay (by simp [hcore]) x hx'
    · obtain rfl := mem_singleton.mp hx'
      rfl
  obtain ⟨r, m, hr, hm, hlt, hmarks, _⟩ := h.received ht hv he
  obtain ⟨hcomplete, hcome⟩ := hmarks.arrive h.flow hx
  refine ⟨endSeq, m, hr, hm, Nat.le_trans hmarks.written (Nat.le_of_lt hlt),
    h.flow.bounded _ _ hend, Nat.le_trans hmarks.base (Nat.le_of_lt hlt), fun i e hi hle => ?_,
    fun e he => ?_, fun i e hi hie hlt' => absurd (hcome i e hi hie) (Nat.not_le.mpr hlt'), ?_,
    fun d e hmem => ?_⟩
  · by_cases hne : e = endSeq
    · subst hne
      exact .inr (.inr (.inr ⟨data, mem_append_right _ mem_cons_self, hself⟩))
    rcases hcomplete i e hi hle hne with hb | hs | hbl | ⟨d, hq, hde⟩
    · exact .inl hb
    · exact .inr (.inl hs)
    · exact .inr (.inr (.inl hbl))
    · exact .inr (.inr (.inr ⟨d, mem_append_left _ hq, hde⟩))
  · have hle : ∀ e, some e ∈ w.shown ++ w.inFlight ++ w.view.hiddenWriteBuffer.text →
        e ≤ endSeq := fun e he => Nat.le_trans (hmarks.exact e he) (Nat.le_of_lt hlt)
    rcases mem_append.mp he with he | he
    · rcases mem_append.mp he with he | he
      · exact hle e (mem_append_left _ (mem_append_left _ he))
      rcases hflight e he with he | he | rfl
      · exact hle e (mem_append_left _ (mem_append_right _ he))
      · exact hle e (mem_append_right _ he)
      · exact Nat.le_refl _
    · exact hle e (mem_append_right _ (hb _ he))
  · refine pairwise_append.mpr ⟨hmarks.order, pairwise_singleton _ _,
      fun x hxq y hy d d' e e' hxe hye => ?_⟩
    obtain rfl := mem_singleton.mp hy
    obtain ⟨_, rfl⟩ := Write.chunk.inj hye
    subst hxe
    exact Nat.lt_of_le_of_lt (hmarks.queued d e hxq).2 hlt
  · rcases mem_append.mp hmem with hmem | hmem
    · obtain ⟨hme, her⟩ := hmarks.queued d e hmem
      exact ⟨hme, Nat.le_trans her (Nat.le_of_lt hlt)⟩
    · obtain ⟨_, rfl⟩ := Write.chunk.inj (mem_singleton.mp hmem)
      exact ⟨Nat.lt_of_le_of_lt hmarks.written hlt, Nat.le_refl _⟩

end

theorem AnchorInv.deliver (h : AnchorInv w) {hasTerm : Bool} {maxPendingChars renderedLength : Nat}
    (hcare : Careful w (.deliver hasTerm maxPendingChars renderedLength)) :
    AnchorInv (w.step epoch (.deliver hasTerm maxPendingChars renderedLength)) := by
  show AnchorInv (w.deliver hasTerm maxPendingChars renderedLength)
  unfold World.deliver
  split
  · exact h
  · next endSeq hx =>
    unfold World.dispatchOutput World.outputHandler
    cases hasTerm with
    | false =>
      exact h.keep hx fun _ hu => .inl hu
    | true =>
    cases renderedLength with
    | zero =>
      exact h.blank hx (hcare endSeq hx)
    | succ n =>
      dsimp only [ResyncView.output]
      rcases hpush : w.view.hiddenWriteBuffer.push (w.view.renderVisible && !w.view.resyncActive)
        maxPendingChars ownText (replicate (n + 1) (some endSeq)) with ⟨b, _ | data⟩
      · refine h.keep hx fun u hu => ?_
        exact (HiddenWriteBuffer.mem_push_kept hpush u hu).imp id eq_of_mem_replicate
      obtain ⟨hv, hb, hout, hself⟩ := HiddenWriteBuffer.mem_push_written hpush
      refine h.direct hx (by simpa using (Bool.and_eq_true_iff.mp hv).2) hb (fun e he => ?_)
        (hself _ (by simp))
      rcases hout _ he with he | he | he
      · exact .inl he
      · exact absurd he (by simp [ownText])
      · exact .inr (some.inj (eq_of_mem_replicate he))
  · next hx => exact h.dispatchDesync hx hasTerm
  · next hx => exact h.dispatchDesync hx hasTerm

theorem AnchorInv.step (h : AnchorInv w) {a : Action} (hcare : Careful w a) :
    AnchorInv (w.step epoch a) := by
  cases a with
  | emit | lose =>
    refine h.grow (by omega) fun e he => ?_
    cases he
    omega
  | signal => exact h.grow (Nat.le_refl _) fun _ he => absurd he (by simp [Emission.endSeq])
  | deliver => exact h.deliver hcare
  | parse => exact h.parse hcare
  | fail => exact h.fail
  | refresh => exact h.view_nil (quiet_desyncHandler h.gate)
  | serve => exact h.serve
  | respond => exact h.respond hcare
  | view a => exact h.view a

theorem anchorInv_init (epoch : Nat) (visible anchored : Bool) (base : Nat) :
    AnchorInv (World.init epoch visible anchored base) where
  flow := ⟨Nat.le_refl 0, fun i j a b _ hi => absurd hi (by simp [World.endAt, World.init]),
    fun i e hi => absurd hi (by simp [World.endAt, World.init]),
    fun e he => absurd he (by simp [World.init]),
    fun e he => absurd he (by simp [World.init, ResyncView.new]),
    fun e he => absurd he (by simp [World.init, World.inFlight, World.handed, ResyncView.new,
      FlushChain.waitingText, FlushChain.new]),
    fun hc => absurd rfl hc, fun _ => rfl, fun _ hu => absurd hu (by simp [World.init]),
    fun _ _ hc => absurd hc (by simp [World.init, ResyncView.new]),
    fun _ x hx => absurd hx (by simp [World.init])⟩
  anchored entry ht hv he := by
    cases anchored with
    | false => exact absurd ht (by simp [World.init])
    | true =>
      cases ht
      exact ⟨base, base, rfl, rfl, Nat.le_refl _, Nat.le_refl _, Nat.le_refl _,
        fun i e hi => absurd hi (by simp [World.endAt, World.init]),
        fun e he => absurd he (by simp [World.init, World.inFlight, World.handed, ResyncView.new,
          FlushChain.waitingText, FlushChain.new]),
        fun i e hi => absurd hi (Nat.not_lt_zero i), List.Pairwise.nil,
        fun _ _ hx => absurd hx (by simp [World.init])⟩

/-- **Anchors of a session with one view**: in a run in which the terminal is reset only while the
tracker is invalid, nothing that shows has come since a snapshot was served when the tracker starts
again from it, and a chunk that renders to nothing does not overtake a direct write, whenever there
is an anchor the terminal shows the output exactly up to it. -/
theorem anchors_sound (epoch : Nat) (visible anchored : Bool) (base : Nat) (as : List Action)
    (hcare : StepsOk (World.step epoch) Careful (World.init epoch visible anchored base) as) :
    Along (World.step epoch) AnchorSound (World.init epoch visible anchored base) as :=
  (along_of_inv (fun _ _ h hc => h.step hc) (anchorInv_init epoch visible anchored base) hcare).mono
    fun _ h => h.sound

def recoveredRun : List Action :=
  [.signal, .deliver true 0 0, .view .prepare, .view .send, .serve, .respond true, .parse,
    .view .settle, .emit 4, .deliver true 100 3, .parse]

theorem anchors_sound_recovered :
    StepsOk (World.step 1) Careful (World.init 1 true true 5) recoveredRun ∧
      Along (World.step 1) AnchorSound (World.init 1 true true 5) recoveredRun := by
  have hcare : StepsOk (World.step 1) Careful (World.init 1 true true 5) recoveredRun := by
    refine ⟨trivial, fun _ hx => (nomatch hx), trivial, trivial, trivial, fun _ => ⟨_, rfl, rfl⟩,
      fun upTo queue hq i e hi hie => ?_, trivial, trivial, trivial, fun _ _ hq => (nomatch hq),
      trivial⟩
    obtain rfl := Nat.lt_one_iff.mp hi
    exact nomatch hie
  exact ⟨hcare, anchors_sound 1 true true 5 recoveredRun hcare⟩

def staleAnchorRun : List Action :=
  [.signal, .deliver true 0 0, .view .prepare, .view .send, .serve, .emit 4, .deliver true 100 3,
    .respond true, .parse, .view .settle, .view (.startFlush 0)]

/-- the flush writes the chunk that ends at 10, and the anchor is still 5 -/
theorem stale_anchor : ¬ ∀ (epoch : Nat) (visible anchored : Bool) (base : Nat) (as : List Action),
    Along (World.step epoch) AnchorSound (World.init epoch visible anchored base) as := by
  intro h
  have hshows := (h 1 true true 5 staleAnchorRun).last ⟨5, 1⟩ (by decide)
  have hle : 10 ≤ 5 := hshows.exact 10 (by decide)
  omega

end CheckpointAnchor

end CcPanes

import CcPanes.Foundation.Run
import CcPanes.View.OutputService
import Mathlib.Tactic.ByContra

/-!
# Desync signals of the front end

A desync event is broadcast to the views that are registered for it.  When the pending buffer
overflows there is no output subscriber, so the service also latches the signal for the next view
that registers.
-/

namespace CcPanes
open List

namespace DesyncLatch

open Run OutputService

/-! ## runs -/

/-- what a view has seen since it subscribed to the output -/
structure ViewLog where
  given : List PendingChunk
  /-- its desync callback has been invoked -/
  signalled : Bool
  /-- it subscribed while there was no other subscriber -/
  first : Bool
  /-- it has registered for desync, before any other view did since the last subscriber left -/
  prompt : Bool

structure World where
  service : OutputService
  /-- the chunks received since the last output subscriber left -/
  stream : List PendingChunk
  /-- no view has registered for desync since then -/
  quiet : Bool
  views : Nat → ViewLog

def World.init : World := ⟨OutputService.new, [], true, fun _ => ⟨[], false, false, false⟩⟩

inductive Action
  | output (chunk : PendingChunk)
  | desync
  | registerOutput (view : Nat)
  | registerDesync (view : Nat)
  | unsubscribeOutput (view : Nat)
  | unsubscribeDesync (view : Nat)

/-- the service after an action, and the callbacks that the action invokes -/
def serve (s : OutputService) : Action → OutputService × List Callback
  | .output chunk => s.onOutput chunk
  | .desync => s.onDesync
  | .registerOutput view => s.registerOutput view
  | .registerDesync view => s.registerDesync view
  | .unsubscribeOutput view => (s.unsubscribeOutput view, [])
  | .unsubscribeDesync view => (s.unsubscribeDesync view, [])

def ViewLog.note (view : Nat) (log : ViewLog) : Callback → ViewLog
  | .output v chunk => if v = view then { log with given := log.given ++ [chunk] } else log
  | .desync v => if v = view then { log with signalled := true } else log

namespace World

def calls (w : World) (a : Action) : List Callback := (serve w.service a).2

/-- the log of a view before the callbacks of an action are invoked -/
def opened (w : World) (view : Nat) : Action → ViewLog
  | .registerOutput v =>
    if v = view ∧ view ∉ w.service.outputCallbacks then
      ⟨[], false, w.service.outputCallbacks.isEmpty, false⟩
    else w.views view
  | .registerDesync v =>
    if v = view ∧ view ∈ w.service.outputCallbacks ∧ w.quiet = true then
      { w.views view with prompt := true }
    else w.views view
  | _ => w.views view

def lastLeaves (w : World) (a : Action) : Bool :=
  !w.service.outputCallbacks.isEmpty && (serve w.service a).1.outputCallbacks.isEmpty

def step (w : World) (a : Action) : World where
  service := (serve w.service a).1
  stream := match a with
    | .output chunk => w.stream ++ [chunk]
    | _ => if w.lastLeaves a then [] else w.stream
  quiet := match a with
    | .registerDesync _ => false
    | _ => if w.lastLeaves a then true else w.quiet
  views view := (w.calls a).foldl (ViewLog.note view) (w.opened view a)

end World

/-- the pending buffer has overflowed since the last view registered for desync -/
def OverflowedSince (as : List Action) : Prop :=
  ∃ pre chunk post, as = pre ++ .output chunk :: post ∧
    Overflows (run World.step World.init pre).service chunk ∧
    ∀ b ∈ post, ∀ view, b ≠ .registerDesync view

/-- a view that became the first subscriber, was the first to register for desync, and has not been
signalled has been given every chunk since the last subscriber left -/
def Complete (w : World) : Prop :=
  ∀ view ∈ w.service.outputCallbacks, (w.views view).first = true → (w.views view).prompt = true →
    (w.views view).signalled = false → (w.views view).given = w.stream

def Reveals (s : OutputService) : Action → Prop
  | .desync => True
  | .output chunk => Overflows s chunk
  | _ => False

theorem noted_outputs (view : Nat) (chunk : PendingChunk) (callbacks : List Nat)
    (hnodup : callbacks.Nodup) (log : ViewLog) :
    (callbacks.map fun v => Callback.output v chunk).foldl (ViewLog.note view) log
      = if view ∈ callbacks then { log with given := log.given ++ [chunk] } else log := by
  induction callbacks generalizing log with
  | nil => rfl
  | cons v callbacks ih =>
    obtain ⟨hv, hnodup⟩ := nodup_cons.mp hnodup
    rw [map_cons, foldl_cons, ih hnodup]
    by_cases hvv : v = view
    · subst hvv
      rw [if_neg hv, if_pos mem_cons_self]
      exact if_pos rfl
    have hnote : ViewLog.note view log (.output v chunk) = log := if_neg hvv
    have hmem : view ∈ v :: callbacks ↔ view ∈ callbacks := by
      simp [Ne.symm hvv]
    simp only [hnote, hmem]

theorem noted_flush (view v : Nat) (chunks : List PendingChunk) (log : ViewLog) :
    (chunks.map fun chunk => Callback.output v chunk).foldl (ViewLog.note view) log
      = if v = view then { log with given := log.given ++ chunks } else log := by
  induction chunks generalizing log with
  | nil =>
    simp only [map_nil, foldl_nil, append_nil]
    split <;> rfl
  | cons chunk chunks ih =>
    rw [map_cons, foldl_cons, ih]
    by_cases hvv : v = view
    · simp [ViewLog.note, hvv, append_assoc]
    · simp [ViewLog.note, hvv]

theorem noted_desyncs (view : Nat) (callbacks : List Nat) (log : ViewLog) :
    (callbacks.map Callback.desync).foldl (ViewLog.note view) log
      = if view ∈ callbacks then { log with signalled := true } else log := by
  induction callbacks generalizing log with
  | nil => rfl
  | cons v callbacks ih =>
    rw [map_cons, foldl_cons, ih]
    by_cases hvv : v = view
    · subst hvv
      simp [ViewLog.note]
    · simp [ViewLog.note, hvv, Ne.symm hvv]

/-! ## the invariant -/

structure LatchInv (w : World) : Prop where
  nodup : w.service.outputCallbacks.Nodup
  /-- what waits for the first subscriber is the stream, or the signal is latched -/
  waiting : w.service.outputCallbacks = [] →
    (w.service.stateOf.overflowed = false → w.service.stateOf.chunks = w.stream) ∧
      (w.service.stateOf.overflowed = true → w.quiet = true → w.service.latchedDesync = true)
  taken : w.service.outputCallbacks ≠ [] → w.service.buffer = none
  prompt : ∀ view ∈ w.service.outputCallbacks, (w.views view).prompt = true → w.quiet = false
  views : ∀ view ∈ w.service.outputCallbacks, (w.views view).first = true →
    (w.views view).given = w.stream ∨ (w.views view).signalled = true ∨
      (w.quiet = true ∧ w.service.latchedDesync = true) ∨
      (w.quiet = false ∧ (w.views view).prompt = false)

theorem LatchInv.complete {w : World} (h : LatchInv w) : Complete w := by
  intro view hv hf hp hs
  rcases h.views view hv hf with hg | hsig | ⟨hq, _⟩ | ⟨_, hnp⟩
  · exact hg
  · rw [hs] at hsig
    cases hsig
  · rw [h.prompt view hv hp] at hq
    cases hq
  · rw [hp] at hnp
    cases hnp

theorem LatchInv.of_empty {w : World} (he : w.service.outputCallbacks = [])
    (hchunks : w.service.stateOf.overflowed = false → w.service.stateOf.chunks = w.stream)
    (hlatch : w.service.stateOf.overflowed = true → w.quiet = true →
      w.service.latchedDesync = true) : LatchInv w where
  nodup := he ▸ nodup_nil
  waiting _ := ⟨hchunks, hlatch⟩
  taken h := absurd he h
  prompt _ h := nomatch (he ▸ h)
  views _ h := nomatch (he ▸ h)

theorem init_inv : LatchInv World.init :=
  LatchInv.of_empty rfl (fun _ => rfl) nofun

theorem lastLeaves_eq_false {w : World} {a : Action}
    (h : (serve w.service a).1.outputCallbacks = [] → w.service.outputCallbacks = []) :
    w.lastLeaves a = false := by
  unfold World.lastLeaves
  by_cases he : (serve w.service a).1.outputCallbacks = []
  · rw [h he]
    rfl
  · rw [isEmpty_eq_false_iff.mpr he, Bool.and_false]

theorem step_of_stays {w : World} {a : Action} (hleaves : w.lastLeaves a = false) :
    w.step a = ⟨(serve w.service a).1,
      match a with | .output chunk => w.stream ++ [chunk] | _ => w.stream,
      match a with | .registerDesync _ => false | _ => w.quiet,
      fun view => (w.calls a).foldl (ViewLog.note view) (w.opened view a)⟩ := by
  unfold World.step
  rw [hleaves]
  cases a <;> rfl

namespace LatchInv

variable {w : World}

theorem output (h : LatchInv w) (chunk : PendingChunk) : LatchInv (w.step (.output chunk)) := by
  obtain ⟨t, hcase⟩ := onOutput_cases w.service chunk
  have hleaves : w.lastLeaves (.output chunk) = false := by
    refine lastLeaves_eq_false fun he => ?_
    rcases hcase with ⟨_, ho⟩ | ⟨he, _⟩ | ⟨he, _⟩ | ⟨he, _⟩
    · have he' : (w.service.onOutput chunk).1.outputCallbacks = [] := he
      rw [ho] at he'
      exact he'
    · exact he
    · exact he
    · exact he.1
  have hstep : w.step (.output chunk) = ⟨(w.service.onOutput chunk).1, w.stream ++ [chunk], w.quiet,
      fun view => (w.service.onOutput chunk).2.foldl (ViewLog.note view) (w.views view)⟩ :=
    step_of_stays hleaves
  rw [hstep]
  rcases hcase with ⟨hne, ho⟩ | ⟨he, hof, _, ho⟩ | ⟨he, hof, _, chars, ho⟩ | ⟨hov, ho⟩
  · rw [ho]
    refine ⟨h.nodup, fun he => absurd he hne, h.taken, fun view hv hp => ?_, fun view hv hf => ?_⟩
    · dsimp only at hv hp ⊢
      rw [noted_outputs view chunk _ h.nodup, if_pos hv] at hp
      exact h.prompt view hv hp
    dsimp only at hv hf ⊢
    rw [noted_outputs view chunk _ h.nodup, if_pos hv] at hf ⊢
    rcases h.views view hv hf with hg | hrest
    · exact .inl (congrArg (· ++ [chunk]) hg)
    · exact .inr hrest
  · rw [ho]
    refine LatchInv.of_empty he (fun hof' => ?_) fun _ => (h.waiting he).2 hof
    cases hof'.symm.trans hof
  · rw [ho]
    refine LatchInv.of_empty he (fun _ => ?_) fun hof' => absurd hof' (by simp [stateOf])
    exact congrArg (· ++ [chunk]) ((h.waiting he).1 hof)
  · rw [ho]
    exact LatchInv.of_empty hov.1 (fun hof' => absurd hof' (by simp [stateOf])) fun _ _ => rfl

theorem desync (h : LatchInv w) : LatchInv (w.step .desync) := by
  have hstep : w.step .desync = ⟨(w.service.onDesync).1, w.stream, w.quiet, fun view =>
      if view ∈ w.service.desyncCallbacks then { w.views view with signalled := true }
      else w.views view⟩ := by
    rw [step_of_stays (lastLeaves_eq_false fun he => he)]
    exact congrArg (World.mk _ _ _) (funext fun view => noted_desyncs view _ _)
  rw [hstep]
  refine ⟨h.nodup, h.waiting, h.taken, fun view hv hp => ?_, fun view hv hf => ?_⟩
  · refine h.prompt view hv ?_
    dsimp only at hp
    split at hp <;> exact hp
  dsimp only at hf ⊢
  split
  · exact .inr (.inl rfl)
  · next hd =>
    rw [if_neg hd] at hf
    exact h.views view hv hf

theorem registerFirst (h : LatchInv w) (he : w.service.outputCallbacks = []) (view : Nat) :
    LatchInv (w.step (.registerOutput view)) := by
  have hreg : w.service.registerOutput view = ({ w.service with
      outputCallbacks := [view]
      buffer := none }, (if w.service.stateOf.overflowed then [] else w.service.stateOf.chunks).map
        fun chunk => .output view chunk) := by
    unfold registerOutput addSubscriber takePendingOutput stateOf
    rw [he]
    cases w.service.buffer with
    | none => rfl
    | some => rfl
  have hstep : w.step (.registerOutput view) = ⟨{ w.service with
      outputCallbacks := [view]
      buffer := none }, w.stream, w.quiet, fun v =>
      (w.calls (.registerOutput view)).foldl (ViewLog.note v)
        (w.opened v (.registerOutput view))⟩ := by
    rw [step_of_stays]
    · show World.mk (w.service.registerOutput view).1 _ _ _ = _
      rw [hreg]
    refine lastLeaves_eq_false fun hempty => ?_
    have hempty' : (w.service.registerOutput view).1.outputCallbacks = [] := hempty
    rw [hreg] at hempty'
    cases hempty'
  have hlog : (w.calls (.registerOutput view)).foldl (ViewLog.note view)
      (w.opened view (.registerOutput view))
      = ⟨if w.service.stateOf.overflowed then [] else w.service.stateOf.chunks, false, true,
        false⟩ := by
    show (w.service.registerOutput view).2.foldl _ (if _ then _ else _) = _
    rw [hreg, noted_flush, if_pos rfl, he]
    simp
  rw [hstep]
  refine ⟨by simp, nofun, fun _ => rfl,
    fun v hv hp => ?_, fun v hv _ => ?_⟩
  · obtain rfl := mem_singleton.mp hv
    dsimp only at hp
    rw [hlog] at hp
    cases hp
  obtain rfl := mem_singleton.mp hv
  dsimp only
  rw [hlog]
  cases hof : w.service.stateOf.overflowed with
  | false => exact .inl ((h.waiting he).1 hof)
  | true =>
    cases hq : w.quiet with
    | false => exact .inr (.inr (.inr ⟨rfl, rfl⟩))
    | true => exact .inr (.inr (.inl ⟨rfl, (h.waiting he).2 hof hq⟩))

theorem registerOther (h : LatchInv w) (he : w.service.outputCallbacks ≠ []) (view : Nat) :
    LatchInv (w.step (.registerOutput view)) := by
  have hreg : w.service.registerOutput view = ({ w.service with
      outputCallbacks := addSubscriber w.service.outputCallbacks view }, []) := by
    unfold registerOutput
    rw [isEmpty_eq_false_iff.mpr he]
    rfl
  have hne : addSubscriber w.service.outputCallbacks view ≠ [] := by
    unfold addSubscriber
    split
    · exact he
    · simp
  have hstep : w.step (.registerOutput view) = ⟨{ w.service with
      outputCallbacks := addSubscriber w.service.outputCallbacks view }, w.stream, w.quiet,
      fun v => w.opened v (.registerOutput view)⟩ := by
    rw [step_of_stays]
    · show World.mk (w.service.registerOutput view).1 _ _
        (fun v => (w.service.registerOutput view).2.foldl _ _) = _
      rw [hreg]
      rfl
    refine lastLeaves_eq_false fun hempty => ?_
    have hempty' : (w.service.registerOutput view).1.outputCallbacks = [] := hempty
    rw [hreg] at hempty'
    exact absurd hempty' hne
  -- a view that joins others is not the first, and the others keep their logs
  have hlog : ∀ v ∈ addSubscriber w.service.outputCallbacks view,
      (w.opened v (.registerOutput view) = w.views v ∧ v ∈ w.service.outputCallbacks) ∨
        w.opened v (.registerOutput view) = ⟨[], false, false, false⟩ := by
    intro v hv
    show ((if _ then _ else _) = _ ∧ _) ∨ (if _ then _ else _) = _
    by_cases hin : v ∈ w.service.outputCallbacks
    · exact .inl ⟨if_neg fun hc => hc.2 hin, hin⟩
    have hvv : view = v := by
      unfold addSubscriber at hv
      split at hv
      · exact absurd hv hin
      · exact ((mem_append.mp hv).resolve_left hin |> mem_singleton.mp).symm
    rw [if_pos ⟨hvv, hin⟩, isEmpty_eq_false_iff.mpr he]
    exact .inr rfl
  rw [hstep]
  refine ⟨?_, fun hempty => absurd hempty hne, fun _ => h.taken he, fun v hv hp => ?_,
    fun v hv hf => ?_⟩
  · show (addSubscriber _ _).Nodup
    unfold addSubscriber
    split
    · exact h.nodup
    · next hin => exact nodup_append.mpr ⟨h.nodup, by simp, by
        rintro a ha b hb rfl
        exact hin (mem_singleton.mp hb ▸ ha)⟩
  · dsimp only at hp
    rcases hlog v hv with ⟨hl, hin⟩ | hl
    · rw [hl] at hp
      exact h.prompt v hin hp
    · rw [hl] at hp
      cases hp
  · dsimp only at hf ⊢
    rcases hlog v hv with ⟨hl, hin⟩ | hl
    · rw [hl] at hf ⊢
      exact h.views v hin hf
    · rw [hl] at hf
      cases hf

theorem registerDesync (h : LatchInv w) (view : Nat) :
    LatchInv (w.step (.registerDesync view)) := by
  have hstep : w.step (.registerDesync view) = ⟨{ w.service with
      desyncCallbacks := addSubscriber w.service.desyncCallbacks view
      latchedDesync := false }, w.stream, false, fun v =>
      if w.service.latchedDesync = true ∧ view = v then
        { w.opened v (.registerDesync view) with signalled := true }
      else w.opened v (.registerDesync view)⟩ := by
    have hleaves : w.lastLeaves (.registerDesync view) = false := by
      refine lastLeaves_eq_false fun hempty => ?_
      have hempty' : (w.service.registerDesync view).1.outputCallbacks = [] := hempty
      unfold OutputService.registerDesync consumeLatchedDesync at hempty'
      cases hl : w.service.latchedDesync with
      | false => simpa [hl] using hempty'
      | true => simpa [hl] using hempty'
    rw [step_of_stays hleaves]
    show World.mk (w.service.registerDesync view).1 _ _
      (fun v => (w.service.registerDesync view).2.foldl _ _) = _
    unfold OutputService.registerDesync consumeLatchedDesync
    cases hl : w.service.latchedDesync with
    | false => simp
    | true => simp [ViewLog.note]
  have hopened : ∀ v, w.opened v (.registerDesync view) = w.views v ∨
      (view = v ∧ w.quiet = true ∧
        w.opened v (.registerDesync view) = { w.views v with prompt := true }) := by
    intro v
    show (if _ then _ else _) = _ ∨ _ ∧ _ ∧ (if _ then _ else _) = _
    by_cases hc : view = v ∧ v ∈ w.service.outputCallbacks ∧ w.quiet = true
    · exact .inr ⟨hc.1, hc.2.2, if_pos hc⟩
    · exact .inl (if_neg hc)
  rw [hstep]
  refine ⟨h.nodup, fun he => ⟨(h.waiting he).1, nofun⟩, h.taken,
    fun _ _ _ => rfl, fun v hv hf => ?_⟩
  dsimp only at hf ⊢
  by_cases hcall : w.service.latchedDesync = true ∧ view = v
  · rw [if_pos hcall]
    exact .inr (.inl rfl)
  rw [if_neg hcall] at hf ⊢
  rcases hopened v with ho | ⟨hvv, hq, ho⟩
  · rw [ho] at hf ⊢
    rcases h.views v hv hf with hg | hs | ⟨hq, _⟩ | ⟨_, hnp⟩
    · exact .inl hg
    · exact .inr (.inl hs)
    · -- another view has taken the latched signal away
      refine .inr (.inr (.inr ⟨rfl, ?_⟩))
      refine Bool.eq_false_iff.mpr fun hp => ?_
      rw [h.prompt v hv hp] at hq
      cases hq
    · exact .inr (.inr (.inr ⟨rfl, hnp⟩))
  · rw [ho] at hf ⊢
    rcases h.views v hv hf with hg | hs | ⟨_, hl⟩ | ⟨hnq, _⟩
    · exact .inl hg
    · exact .inr (.inl hs)
    · exact absurd ⟨hl, hvv⟩ hcall
    · rw [hq] at hnq
      cases hnq

theorem unsubscribeOutput (h : LatchInv w) (view : Nat) :
    LatchInv (w.step (.unsubscribeOutput view)) := by
  have hsub : ∀ v ∈ removeSubscriber w.service.outputCallbacks view,
      v ∈ w.service.outputCallbacks := fun v hv => (mem_filter.mp hv).1
  cases hl : w.lastLeaves (.unsubscribeOutput view) with
  | false =>
    rw [step_of_stays hl]
    refine ⟨h.nodup.filter _, fun he => ?_, fun hne => h.taken fun he => hne ?_,
      fun v hv hp => h.prompt v (hsub v hv) hp, fun v hv hf => h.views v (hsub v hv) hf⟩
    · -- there was no subscriber to begin with
      have hempty : w.service.outputCallbacks = [] := by
        by_contra hne
        have he' : (w.service.unsubscribeOutput view).outputCallbacks = [] := he
        refine absurd hl ?_
        show ¬ (!w.service.outputCallbacks.isEmpty &&
          (w.service.unsubscribeOutput view).outputCallbacks.isEmpty) = false
        rw [he', isEmpty_eq_false_iff.mpr hne]
        decide
      exact h.waiting hempty
    · show removeSubscriber w.service.outputCallbacks view = []
      rw [he]
      rfl
  | true =>
    obtain ⟨hne, he⟩ := Bool.and_eq_true_iff.mp hl
    have hbuffer : w.service.buffer = none := by
      refine h.taken fun hempty => ?_
      rw [hempty] at hne
      cases hne
    have hstate : (w.service.unsubscribeOutput view).stateOf = ⟨[], 0, false⟩ := by
      show w.service.buffer.getD _ = _
      rw [hbuffer]
      rfl
    refine LatchInv.of_empty (isEmpty_iff.mp he) (fun _ => ?_) fun hof => ?_
    · show (w.service.unsubscribeOutput view).stateOf.chunks
        = if w.lastLeaves (.unsubscribeOutput view) then [] else w.stream
      rw [hstate, hl]
      rfl
    · have hof' : (w.service.unsubscribeOutput view).stateOf.overflowed = true := hof
      rw [hstate] at hof'
      cases hof'

theorem step (h : LatchInv w) (a : Action) : LatchInv (w.step a) := by
  cases a with
  | output chunk => exact h.output chunk
  | desync => exact h.desync
  | registerOutput view =>
    by_cases he : w.service.outputCallbacks = []
    · exact h.registerFirst he view
    · exact h.registerOther he view
  | registerDesync view => exact h.registerDesync view
  | unsubscribeOutput view => exact h.unsubscribeOutput view
  | unsubscribeDesync =>
    rw [step_of_stays (lastLeaves_eq_false fun he => he)]
    exact ⟨h.nodup, h.waiting, h.taken, h.prompt, h.views⟩

end LatchInv

/-! ## the latch -/

theorem overflowedSince_snoc_registerDesync (as : List Action) (view : Nat) :
    ¬ OverflowedSince (as ++ [.registerDesync view]) := by
  rintro ⟨pre, chunk, post, e, _, hpost⟩
  rcases post.eq_nil_or_concat with rfl | ⟨post', b, rfl⟩
  · exact absurd (append_inj' e rfl).2 (by simp)
  have e' : as ++ [Action.registerDesync view] = (pre ++ .output chunk :: post') ++ [b] := by
    simpa using e
  have hb := (append_inj' e' rfl).2
  exact hpost b (by simp) view (head_eq_of_cons_eq hb).symm

theorem overflowedSince_snoc_other {as : List Action} {a : Action}
    (ha : ∀ view, a ≠ .registerDesync view) :
    OverflowedSince (as ++ [a]) ↔ OverflowedSince as ∨
      ∃ chunk, a = .output chunk ∧ (run World.step World.init as).service.Overflows chunk := by
  constructor
  · rintro ⟨pre, chunk, post, e, hov, hpost⟩
    rcases post.eq_nil_or_concat with rfl | ⟨post', b, rfl⟩
    · obtain ⟨rfl, hb⟩ := append_inj' e rfl
      exact .inr ⟨chunk, head_eq_of_cons_eq hb, hov⟩
    · have e' : as ++ [a] = (pre ++ .output chunk :: post') ++ [b] := by simpa using e
      exact .inl ⟨pre, chunk, post', (append_inj' e' rfl).1, hov,
        fun c hc => hpost c (by simp [hc])⟩
  · rintro (⟨pre, chunk, post, rfl, hov, hpost⟩ | ⟨chunk, rfl, hov⟩)
    · refine ⟨pre, chunk, post ++ [a], by simp, hov, fun c hc view => ?_⟩
      rcases mem_append.mp hc with hc | hc
      · exact hpost c hc view
      · rw [mem_singleton.mp hc]
        exact ha view
    · exact ⟨as, chunk, [], rfl, hov, nofun⟩

theorem onOutput_latched (s : OutputService) (chunk : PendingChunk) :
    (s.onOutput chunk).1.latchedDesync = true ↔ s.latchedDesync = true ∨ s.Overflows chunk := by
  obtain ⟨t, ⟨hne, ho⟩ | ⟨_, _, hov, ho⟩ | ⟨_, _, hov, _, ho⟩ | ⟨hov, ho⟩⟩ := onOutput_cases s chunk
  · rw [ho]
    exact (or_iff_left fun hov => hne hov.1).symm
  · rw [ho]
    exact (or_iff_left hov).symm
  · rw [ho]
    exact (or_iff_left hov).symm
  · rw [ho]
    exact iff_of_true rfl (.inr hov)

theorem registerOutput_latched (s : OutputService) (view : Nat) :
    (s.registerOutput view).1.latchedDesync = s.latchedDesync := by
  unfold registerOutput takePendingOutput
  dsimp only
  split
  · split <;> rfl
  · rfl

theorem registerDesync_latched (s : OutputService) (view : Nat) :
    (s.registerDesync view).1.latchedDesync = false := by
  unfold registerDesync consumeLatchedDesync
  dsimp only
  split
  · next e => exact (congrArg (fun p => p.1.latchedDesync) e).symm
  · next e => exact (congrArg (fun p => p.1.latchedDesync) e).symm

theorem latched_iff (as : List Action) :
    (run World.step World.init as).service.latchedDesync = true ↔ OverflowedSince as := by
  induction as using history_induct with
  | hnil =>
    refine iff_of_false (by decide) ?_
    rintro ⟨pre, chunk, post, e, _⟩
    exact absurd e (by simp)
  | hstep as a ih =>
    rw [run_snoc]
    have hkept : ∀ b : Action, (∀ view, b ≠ .registerDesync view) → (∀ chunk, b ≠ .output chunk) →
        (OverflowedSince (as ++ [b]) ↔ OverflowedSince as) := by
      intro b hr ho
      rw [overflowedSince_snoc_other hr]
      exact or_iff_left fun ⟨chunk, e, _⟩ => ho chunk e
    cases a with
    | output chunk =>
      rw [overflowedSince_snoc_other (by simp), ← ih]
      show ((run World.step World.init as).service.onOutput chunk).1.latchedDesync = true ↔ _
      rw [onOutput_latched]
      simp
    | registerDesync view =>
      refine iff_of_false ?_ (overflowedSince_snoc_registerDesync as view)
      show ¬ ((run World.step World.init as).service.registerDesync view).1.latchedDesync = true
      rw [registerDesync_latched]
      decide
    | registerOutput view =>
      rw [hkept _ (by simp) (by simp), ← ih]
      show ((run World.step World.init as).service.registerOutput view).1.latchedDesync = true ↔ _
      rw [registerOutput_latched]
    | desync | unsubscribeOutput | unsubscribeDesync =>
      exact ih.trans (hkept _ (by simp) (by simp)).symm

theorem reveals_broadcast (w : World) (a : Action) (ha : Reveals w.service a) :
    ∀ view ∈ w.service.desyncCallbacks, Callback.desync view ∈ w.calls a := by
  intro view hv
  cases a with
  | desync => exact mem_map_of_mem hv
  | output chunk =>
    have hov : w.service.Overflows chunk := ha
    obtain ⟨t, ⟨hne, _⟩ | ⟨_, _, hno, _⟩ | ⟨_, _, hno, _⟩ | ⟨_, ho⟩⟩ :=
      onOutput_cases w.service chunk
    · exact absurd hov.1 hne
    · exact absurd hov hno
    · exact absurd hov hno
    · show Callback.desync view ∈ (w.service.onOutput chunk).2
      rw [ho]
      exact mem_map_of_mem hv
  | _ => exact absurd ha (by simp [Reveals])

theorem registerDesync_signals (s : OutputService) (view : Nat) (hl : s.latchedDesync = true) :
    Callback.desync view ∈ (s.registerDesync view).2 := by
  unfold registerDesync consumeLatchedDesync
  rw [hl]
  exact mem_singleton_self _

/-- **No silent gap at the front end**: a desync event and an overflow reach every view that is
registered, an overflow reaches the next view that registers, and a first subscriber that registered
promptly and was not signalled has been given every chunk since the last subscriber left. -/
theorem signalled_or_complete (as : List Action) :
    (∀ a, Reveals (run World.step World.init as).service a →
      ∀ view ∈ (run World.step World.init as).service.desyncCallbacks,
        Callback.desync view ∈ (run World.step World.init as).calls a) ∧
      (OverflowedSince as → ∀ view, Callback.desync view ∈
        (run World.step World.init as).calls (.registerDesync view)) ∧
      Complete (run World.step World.init as) := by
  refine ⟨reveals_broadcast _, fun hov view => ?_, ?_⟩
  · exact registerDesync_signals _ view ((latched_iff as).mpr hov)
  · exact (run_inv (I := LatchInv) (fun w a hw => hw.step a) init_inv as).complete

def joiningRun : List Action :=
  [.registerOutput 0, .registerDesync 0, .output ⟨[104], some 1⟩, .registerOutput 1,
    .registerDesync 1]

/-- the second view is neither signalled nor given the chunk -/
theorem joiningView_misses :
    (run World.step World.init joiningRun).service.outputCallbacks = [0, 1] ∧
      ((run World.step World.init joiningRun).views 1).signalled = false ∧
      (run World.step World.init joiningRun).stream = [⟨[104], some 1⟩] ∧
      ((run World.step World.init joiningRun).views 1).given = [] := by
  decide

end DesyncLatch

end CcPanes

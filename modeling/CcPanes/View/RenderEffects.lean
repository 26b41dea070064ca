import CcPanes.View.DataRenderer
import Mathlib.Data.List.TakeWhile
import Mathlib.Data.List.Lemmas

/-!
# What the renderer returns and what its listener hears

`terminalBufferMode.ts` once more, with the calls to `onStrippedTransition`.
-/

namespace CcPanes
open Transducer List

variable {p : JsString} {x y : JsString} {cs : List JsString}

inductive TransitionAction where
  | enter
  | exit
deriving DecidableEq

structure AlternateBufferTransition where
  mode : JsString
  action : TransitionAction

def transitionsOfMatch (m : PrivateMode) : List AlternateBufferTransition :=
  ((m.1.splitOn semicolon).filter (alternateBufferModes.contains ·)).map fun param =>
    ⟨param, if m.2 = 0x68 then .enter else .exit⟩

def detectAlternateBufferTransitions (data : JsString) : List AlternateBufferTransition :=
  (GlobalMatch.matchAll privateModes data).flatMap transitionsOfMatch

theorem detect_append (h : ¬ GlobalMatch.Spans privateModes x y) :
    detectAlternateBufferTransitions (x ++ y) =
      detectAlternateBufferTransitions x ++ detectAlternateBufferTransitions y := by
  rw [detectAlternateBufferTransitions, GlobalMatch.matchAll_append h, flatMap_append]
  rfl

/-! ## effects -/

/-- a call to the listener, or a unit of what is returned after it -/
inductive RenderEffect where
  | transition (t : AlternateBufferTransition)
  | text (c : UInt16)

def textOf (es : List RenderEffect) : JsString :=
  es.filterMap fun
    | .text c => some c
    | .transition _ => none

def transitionsOf (es : List RenderEffect) : List AlternateBufferTransition :=
  es.filterMap fun
    | .text _ => none
    | .transition t => some t

theorem textOf_append (es es' : List RenderEffect) :
    textOf (es ++ es') = textOf es ++ textOf es' := filterMap_append

theorem transitionsOf_append (es es' : List RenderEffect) :
    transitionsOf (es ++ es') = transitionsOf es ++ transitionsOf es' := filterMap_append

theorem textOf_text (x : JsString) : textOf (x.map .text) = x := by
  rw [textOf, filterMap_map]
  exact filterMap_some

theorem transitionsOf_text (x : JsString) : transitionsOf (x.map .text) = [] := by
  rw [transitionsOf, filterMap_map]
  exact filterMap_eq_nil_iff.mpr fun c _ => rfl

theorem textOf_transition (ts : List AlternateBufferTransition) :
    textOf (ts.map .transition) = [] := by
  rw [textOf, filterMap_map]
  exact filterMap_eq_nil_iff.mpr fun c _ => rfl

theorem transitionsOf_transition (ts : List AlternateBufferTransition) :
    transitionsOf (ts.map .transition) = ts := by
  rw [transitionsOf, filterMap_map]
  exact filterMap_some

/-- `onTransition` tells whether there is a listener -/
def release (onTransition : Bool) (data : JsString) : List RenderEffect :=
  (if onTransition ∧ data ≠ [] then (detectAlternateBufferTransitions data).map .transition
    else []) ++ (stripAlternateBufferSequences data).map .text

/-- `push`: what is pending afterwards, and what comes out -/
def stripperPush (onTransition : Bool) (pending chunk : JsString) :
    JsString × List RenderEffect :=
  let combined := pending ++ chunk
  let tail := partialTail combined
  if tail ≠ [] ∧ tail.length ≤ maxPartialTailLength then
    (tail, release onTransition (combined.take (combined.length - tail.length)))
  else ([], release onTransition combined)

def stripperFlush (onTransition : Bool) (pending : JsString) : List RenderEffect :=
  release onTransition pending

def renderEffects (onStrippedTransition : Bool) (r : TerminalDataRenderer) (data : JsString)
    (context : TerminalDataRenderContext) : TerminalDataRenderer × List RenderEffect :=
  let switched : Prop :=
    presentId context.sessionId ∧ presentId r.activeSessionId ∧
      context.sessionId ≠ r.activeSessionId
  let stripper := if switched then none else r.stripper
  let backgroundStripper := if switched then none else r.backgroundStripper
  let activeSessionId :=
    if presentId context.sessionId then context.sessionId else r.activeSessionId
  let background : Option JsString × JsString :=
    if context.stripBackgroundColors then
      let pushed := sgrPush (backgroundStripper.getD []) data
      (some pushed.1, pushed.2)
    else (none, data)
  if !context.keepCliOutputInNormalBuffer then
    (⟨none, background.1, activeSessionId⟩, background.2.map .text)
  else
    let pushed := stripperPush onStrippedTransition (stripper.getD []) background.2
    (⟨some pushed.1, background.1, activeSessionId⟩, pushed.2)

theorem textOf_release (onTransition : Bool) (data : JsString) :
    textOf (release onTransition data) = stripAlternateBufferSequences data := by
  have hheard : textOf (if onTransition ∧ data ≠ [] then
      (detectAlternateBufferTransitions data).map .transition else []) = [] := by
    split
    · exact textOf_transition _
    · rfl
  rw [release, textOf_append, textOf_text, hheard, nil_append]

theorem transitionsOf_release (onTransition : Bool) (data : JsString) :
    transitionsOf (release onTransition data) =
      if onTransition then detectAlternateBufferTransitions data else [] := by
  have hheard : transitionsOf (if onTransition ∧ data ≠ [] then
      (detectAlternateBufferTransitions data).map .transition else []) =
      if onTransition then detectAlternateBufferTransitions data else [] := by
    cases onTransition with
    | false => rfl
    | true =>
      by_cases hdata : data = []
      · subst hdata
        rfl
      · rw [if_pos ⟨rfl, hdata⟩, transitionsOf_transition]
        rfl
  rw [release, transitionsOf_append, transitionsOf_text, hheard, append_nil]

theorem stripperPush_held {onTransition : Bool} {pending chunk : JsString}
    (h : (partialTail (pending ++ chunk)).length ≤ maxPartialTailLength) :
    stripperPush onTransition pending chunk =
      (partialTail (pending ++ chunk), release onTransition (beforeTail (pending ++ chunk))) := by
  by_cases hne : partialTail (pending ++ chunk) = []
  · have hbefore := beforeTail_append (pending ++ chunk)
    rw [hne, append_nil] at hbefore
    rw [hne, hbefore]
    exact if_neg fun hc => hc.1 hne
  · exact if_pos ⟨hne, h⟩

theorem stripperPush_released {onTransition : Bool} {pending chunk : JsString}
    (h : ¬ (partialTail (pending ++ chunk)).length ≤ maxPartialTailLength) :
    stripperPush onTransition pending chunk = ([], release onTransition (pending ++ chunk)) :=
  if_neg fun hc => h hc.2

theorem altPush_eq (onTransition : Bool) (pending chunk : JsString) :
    altPush pending chunk = ((stripperPush onTransition pending chunk).1,
      textOf (stripperPush onTransition pending chunk).2) := by
  by_cases h : (partialTail (pending ++ chunk)).length ≤ maxPartialTailLength
  · rw [stripperPush_held h, altPush_held h, textOf_release]
  · rw [stripperPush_released h, altPush_released h, textOf_release]

theorem render_eq (onStrippedTransition : Bool) (r : TerminalDataRenderer) (data : JsString)
    (context : TerminalDataRenderContext) :
    render r data context = ((renderEffects onStrippedTransition r data context).1,
      textOf (renderEffects onStrippedTransition r data context).2) := by
  unfold renderEffects render
  dsimp only
  rw [altPush_eq onStrippedTransition]
  cases context.keepCliOutputInNormalBuffer with
  | false => exact congrArg (Prod.mk _) (textOf_text _).symm
  | true => rfl

def stripperIf (onTransition keep : Bool) (pending chunk : JsString) :
    JsString × List RenderEffect :=
  if keep then stripperPush onTransition pending chunk else (pending, chunk.map .text)

def effectFilters (onStrippedTransition : Bool) (context : TerminalDataRenderContext) :
    JsString × JsString → JsString → (JsString × JsString) × List RenderEffect :=
  comp (filterIf context.stripBackgroundColors sgrPush)
    (stripperIf onStrippedTransition context.keepCliOutputInNormalBuffer)

theorem renderEffects_sees (onStrippedTransition : Bool) (context : TerminalDataRenderContext) :
    Sees (fun r data => renderEffects onStrippedTransition r data context)
      (effectFilters onStrippedTransition context) TerminalDataRenderer.pending
      (Serves context) := by
  intro r data h
  have hserves : Serves context (render r data context).1 := (render_sees context r data h).1
  rw [render_eq onStrippedTransition] at hserves
  refine ⟨hserves, ?_⟩
  have hkept := h.not_switched
  have hbg := h.background
  have halt := h.alternate
  obtain ⟨keep, sid, strip⟩ := context
  obtain ⟨stripper, backgroundStripper, active⟩ := r
  cases keep <;> cases strip
  all_goals
    simp only [renderEffects, effectFilters, filterIf, stripperIf, comp,
      TerminalDataRenderer.pending, if_neg hkept]
    simp_all

/-! ## bounds -/

/-- no match in the text is longer than `n` -/
def ModesWithin (n : Nat) (text : JsString) : Prop :=
  ∀ s ∈ text.tails, ∀ m ∈ matchPrivateMode s, (privateModeSequence m.1 m.2).length ≤ n

instance (n : Nat) (text : JsString) : Decidable (ModesWithin n text) :=
  inferInstanceAs (Decidable (∀ s ∈ text.tails, ∀ m ∈ matchPrivateMode s, _))

/-- a complete sequence `ESC [ … final` at the start of the text -/
def matchControlSequence : JsString → Option JsString
  | c :: d :: rest =>
    if c = esc ∧ d = bracket then
      (rest.dropWhile (!isFinal ·)).head?.map fun final =>
        c :: d :: (rest.takeWhile (!isFinal ·) ++ [final])
    else none
  | _ => none

/-- no sequence `ESC [ … final` in the text is longer than `n` -/
def SequencesWithin (n : Nat) (text : JsString) : Prop :=
  ∀ s ∈ text.tails, ∀ q ∈ matchControlSequence s, q.length ≤ n

instance (n : Nat) (text : JsString) : Decidable (SequencesWithin n text) :=
  inferInstanceAs (Decidable (∀ s ∈ text.tails, ∀ q ∈ matchControlSequence s, _))

theorem ModesWithin.suffix {n : Nat} (h : ModesWithin n y) (hxy : x <:+ y) :
    ModesWithin n x := fun s hs => h s ((mem_tails _ _).mpr (((mem_tails _ _).mp hs).trans hxy))

theorem ModesWithin.left {n : Nat} (h : ModesWithin n (x ++ y)) : ModesWithin n x := by
  intro s hs m hm
  obtain ⟨t, rfl⟩ := (mem_tails _ _).mp hs
  obtain ⟨hvalid, hpre⟩ := privateModes.find_eq_some.mp hm
  have hfind : matchPrivateMode (s ++ y) = some m :=
    privateModes.find_eq_some.mpr ⟨hvalid, hpre.trans (prefix_append s y)⟩
  exact h (s ++ y) ((mem_tails _ _).mpr ⟨t, by rw [append_assoc]⟩) m hfind

theorem SequencesWithin.suffix {n : Nat} (h : SequencesWithin n y) (hxy : x <:+ y) :
    SequencesWithin n x :=
  fun s hs => h s ((mem_tails _ _).mpr (((mem_tails _ _).mp hs).trans hxy))

/-! ## the background stripper in pieces -/

def Unfinished (p : JsString) : Prop := p = [] ∨ p = [esc] ∨ OpenSequence p

theorem scan_unfinished (m : Option JsString) (a : JsString) (hm : ∀ acc ∈ m, OpenSequence acc) :
    Unfinished (scan m a).2 := by
  fun_induction scan m a with
  | case1 => exact .inl rfl
  | case2 => exact .inr (.inl rfl)
  | case3 c hc => exact .inl rfl
  | case4 c d rest h ih =>
    obtain ⟨rfl, rfl⟩ := h
    exact ih fun acc h => by obtain rfl := Option.some.inj h; exact ⟨[], rfl, by simp⟩
  | case5 c d rest h ih => exact ih (by simp)
  | case6 acc => exact .inr (.inr (hm acc rfl))
  | case7 acc c rest hc ih => exact ih (by simp)
  | case8 acc c rest hc ih =>
    refine ih fun acc' h => ?_
    cases h
    exact (hm acc rfl).concat (by simpa using hc)

theorem scan_suffix (m : Option JsString) (a : JsString) : (scan m a).2 <:+ m.getD [] ++ a := by
  fun_induction scan m a with
  | case1 => exact suffix_rfl
  | case2 => exact suffix_rfl
  | case3 c hc => exact nil_suffix
  | case4 c d rest h ih => exact ih
  | case5 c d rest h ih => exact ih.trans (suffix_cons c (d :: rest))
  | case6 acc =>
    rw [append_nil]
    exact suffix_rfl
  | case7 acc c rest hc ih =>
    exact (ih.trans (suffix_cons c rest)).trans (suffix_append acc (c :: rest))
  | case8 acc c rest hc ih =>
    rw [Option.getD_some, append_assoc] at ih
    exact ih

theorem Unfinished.scan (h : Unfinished p) : scan none p = ([], p) := by
  rcases h with rfl | rfl | h
  · rfl
  · rfl
  · have hopen := h.scan []
    rw [append_nil] at hopen
    exact hopen

theorem scan_of_no_final (h : ∀ c ∈ x, isFinal c = false) :
    (scan none x).1 ++ (scan none x).2 = x := by
  induction x with
  | nil => rfl
  | cons c l ih =>
    rw [forall_mem_cons] at h
    cases l with
    | nil =>
      by_cases hc : c = esc
      · simp [CcPanes.scan, hc]
      · simp [CcPanes.scan, hc]
    | cons d l =>
      have hd : ¬ (c = esc ∧ d = bracket) := by
        rintro ⟨-, rfl⟩
        cases h.2 bracket (mem_cons_self ..)
      have hstep : CcPanes.scan none (c :: d :: l) =
          (c :: (CcPanes.scan none (d :: l)).1, (CcPanes.scan none (d :: l)).2) := by
        rw [CcPanes.scan, if_neg hd]
      rw [hstep, cons_append, ih h.2]

theorem OpenSequence.no_final {n : Nat} {acc rest : JsString} (h : OpenSequence acc)
    (hshort : SequencesWithin n (acc ++ rest)) (hlong : n ≤ acc.length) :
    ∀ c ∈ rest, isFinal c = false := by
  obtain ⟨x, rfl, hx⟩ := h
  by_contra hfinal
  push Not at hfinal
  obtain ⟨c, hc, hcfinal⟩ := hfinal
  cases hdrop : rest.dropWhile (!isFinal ·) with
  | nil =>
    rw [dropWhile_eq_nil_iff] at hdrop
    exact hcfinal (by simpa using hdrop c hc)
  | cons f =>
    have hx' : ∀ d ∈ x, (!isFinal d) = true := by
      intro d hd
      rw [hx d hd]
      rfl
    have hmatch : matchControlSequence (esc :: bracket :: x ++ rest) =
        some (esc :: bracket :: (x ++ rest.takeWhile (!isFinal ·) ++ [f])) := by
      rw [cons_append, cons_append, matchControlSequence, if_pos ⟨rfl, rfl⟩,
        dropWhile_append_of_pos hx', takeWhile_append_of_pos hx', hdrop]
      rfl
    have hlen := hshort (esc :: bracket :: x ++ rest) ((mem_tails _ _).mpr suffix_rfl)
      _ hmatch
    simp only [length_cons, length_append, length_nil] at hlen hlong
    omega

/-- **In pieces without too long a sequence, the background stripper gives what it gives for the
whole.** -/
theorem background_pieces (hp : Unfinished p)
    (hshort : SequencesWithin maxPendingSgrLength (p ++ cs.flatten)) :
    (feed sgrPush p cs).2 ++ (feed sgrPush p cs).1 =
        (scan none (p ++ cs.flatten)).1 ++ (scan none (p ++ cs.flatten)).2 ∧
      Unfinished (feed sgrPush p cs).1 := by
  induction cs generalizing p with
  | nil =>
    rw [flatten_nil, append_nil, hp.scan]
    exact ⟨rfl, hp⟩
  | cons c cs ih =>
    have hrest : Unfinished (scan none (p ++ c)).2 := scan_unfinished none (p ++ c) (by simp)
    have hcut := scan_append none (p ++ c) cs.flatten (by simp)
    rw [flatten_cons, ← append_assoc] at hshort ⊢
    rw [feed_cons]
    dsimp only
    have htext : (scan none (p ++ c)).2 ++ cs.flatten <:+ p ++ c ++ cs.flatten := by
      obtain ⟨t, ht⟩ := scan_suffix none (p ++ c)
      rw [Option.getD_none, nil_append] at ht
      exact ⟨t, by rw [← append_assoc, ht]⟩
    by_cases hlen : (scan none (p ++ c)).2.length ≤ maxPendingSgrLength
    · obtain ⟨hout, hpending⟩ := ih hrest (hshort.suffix htext)
      rw [sgrPush_held hlen]
      refine ⟨?_, hpending⟩
      rw [append_assoc, hout, hcut, append_assoc]
    have hopen : OpenSequence (scan none (p ++ c)).2 := by
      rcases hrest with h | h | h
      · rw [h] at hlen
        exact absurd (by decide) hlen
      · rw [h] at hlen
        exact absurd (by decide) hlen
      · exact h
    obtain ⟨hout, hpending⟩ := ih (p := []) (.inl rfl) (hshort.suffix (suffix_append ..))
    have hfinal := hopen.no_final (hshort.suffix htext) (by omega)
    rw [sgrPush_released hlen]
    refine ⟨?_, hpending⟩
    have hwhole : scan none ((scan none (p ++ c)).2 ++ cs.flatten) =
        ([], (scan none (p ++ c)).2 ++ cs.flatten) := by
      have hsome := scan_some hfinal (scan none (p ++ c)).2 []
      rw [append_nil] at hsome
      rw [hopen.scan, hsome]
      rfl
    rw [append_assoc, hout, hcut, nil_append, scan_of_no_final hfinal, hwhole,
      append_nil, append_assoc]

/-! ## the alternate-screen stripper in pieces -/

def HeldBack (p : JsString) : Prop := p = [] ∨ isPartialSequence p = true

theorem partialTail_heldBack (x : JsString) : HeldBack (partialTail x) := by
  induction x with
  | nil => exact .inl rfl
  | cons c l ih =>
    by_cases hc : isPartialSequence (c :: l) = true
    · rw [partialTail_eq_self hc]
      exact .inr hc
    · rw [show partialTail (c :: l) = partialTail l from if_neg hc]
      exact ih

theorem HeldBack.no_terminator (h : HeldBack p) {t : UInt16} (ht : t = 0x68 ∨ t = 0x6c) :
    t ∉ p := by
  intro hmem
  rcases h with rfl | hpart
  · exact absurd hmem (by simp)
  match p, hpart with
  | [c], hpart =>
    rw [isPartialSequence_head hpart, mem_singleton] at hmem
    subst hmem
    exact absurd ht (by decide)
  | [c, d], hpart =>
    simp only [isPartialSequence, Bool.and_eq_true, beq_iff_eq] at hpart
    obtain ⟨rfl, rfl⟩ := hpart
    rcases ht with rfl | rfl <;> exact absurd hmem (by decide)
  | c :: d :: q :: params, hpart =>
    simp only [isPartialSequence, Bool.and_eq_true, beq_iff_eq, all_eq_true] at hpart
    obtain ⟨⟨⟨rfl, rfl⟩, rfl⟩, hparams⟩ := hpart
    simp only [mem_cons] at hmem
    rcases hmem with rfl | rfl | rfl | hmem
    · exact absurd ht (by decide)
    · exact absurd ht (by decide)
    · exact absurd ht (by decide)
    · exact absurd (hparams t hmem) (by rw [isParamChar_terminator ht]; decide)

theorem no_match (h : ∀ t, t = 0x68 ∨ t = 0x6c → t ∉ x) (m : PrivateMode)
    (hm : privateModes.Valid m) : ¬ privateModes.text m <:+: x := by
  intro hin
  exact h m.2 hm.2 (hin.subset (mem_append_right (esc :: bracket :: question :: m.1)
    (mem_singleton.mpr rfl)))

theorem strip_eq_self (h : ∀ t, t = 0x68 ∨ t = 0x6c → t ∉ x) :
    stripAlternateBufferSequences x = x := by
  rw [strip_eq_replace, GlobalMatch.replace_of_none _ (no_match h)]

theorem detect_eq_nil (h : ∀ t, t = 0x68 ∨ t = 0x6c → t ∉ x) :
    detectAlternateBufferTransitions x = [] := by
  rw [detectAlternateBufferTransitions, GlobalMatch.matchAll_of_none (no_match h)]
  rfl

theorem isPartialSequence_tail {c : UInt16} {l : JsString}
    (h : isPartialSequence (c :: l) = true) : esc ∉ l := by
  match l, h with
  | [], _ => simp
  | [d], h =>
    simp only [isPartialSequence, Bool.and_eq_true, beq_iff_eq] at h
    rw [h.2]
    decide
  | d :: q :: params, h =>
    simp only [isPartialSequence, Bool.and_eq_true, beq_iff_eq, all_eq_true] at h
    obtain ⟨⟨⟨-, rfl⟩, rfl⟩, hparams⟩ := h
    simp only [mem_cons, not_or]
    refine ⟨by decide, by decide, fun hmem => ?_⟩
    exact absurd (hparams esc hmem) (by rw [isParamChar_esc]; decide)

theorem isPartialSequence_suffix {s z : JsString} (hs : isPartialSequence s = true)
    (hz : isPartialSequence z = true) (h : s <:+ z) : s = z := by
  obtain ⟨t, rfl⟩ := h
  cases t with
  | nil => rfl
  | cons =>
    refine absurd ?_ (isPartialSequence_tail hz)
    cases s with
    | nil => cases hs
    | cons =>
      rw [isPartialSequence_head hs]
      simp

theorem partialTail_eq {s x : JsString} (hs : s ≠ []) (hpart : isPartialSequence s = true)
    (hsx : s <:+ x) : partialTail x = s := by
  have htail : isPartialSequence (partialTail x) = true :=
    (partialTail_heldBack x).resolve_left (partialTail_ne_nil hs hpart hsx)
  rcases suffix_or_suffix_of_suffix (partialTail_suffix x) hsx with h | h
  · exact isPartialSequence_suffix htail hpart h
  · exact (isPartialSequence_suffix hpart htail h).symm

theorem not_spans_released (hshort : ModesWithin maxPartialTailLength (x ++ y))
    (hlong : ¬ (partialTail x).length ≤ maxPartialTailLength) :
    ¬ GlobalMatch.Spans privateModes x y := by
  rintro ⟨m, s, a, hm, hs, ha, htext, hsx, hay⟩
  have hpart := isPartialSequence_of_match hm htext hs ha
  rw [partialTail_eq hs hpart hsx] at hlong
  obtain ⟨pre, rfl⟩ := hsx
  obtain ⟨post, rfl⟩ := hay
  have hfind : matchPrivateMode (s ++ (a ++ post)) = some m :=
    privateModes.find_eq_some.mpr ⟨hm, post, by rw [htext, append_assoc]⟩
  have hlen := hshort (s ++ (a ++ post))
    ((mem_tails _ _).mpr ⟨pre, by rw [append_assoc]⟩) m hfind
  rw [show privateModeSequence m.1 m.2 = s ++ a from htext, length_append] at hlen
  omega

/-- **In pieces without too long a sequence, the stripper gives what it gives for the whole.** -/
theorem stripper_pieces (onTransition : Bool) (hp : HeldBack p)
    (hshort : ModesWithin maxPartialTailLength (p ++ cs.flatten)) :
    textOf (feed (stripperPush onTransition) p cs).2 ++ (feed (stripperPush onTransition) p cs).1 =
        stripAlternateBufferSequences (p ++ cs.flatten) ∧
      transitionsOf (feed (stripperPush onTransition) p cs).2 =
        (if onTransition then detectAlternateBufferTransitions (p ++ cs.flatten) else []) ∧
      HeldBack (feed (stripperPush onTransition) p cs).1 := by
  induction cs generalizing p with
  | nil =>
    have hnone := fun t ht => hp.no_terminator (t := t) ht
    rw [flatten_nil, append_nil, strip_eq_self hnone, detect_eq_nil hnone]
    refine ⟨rfl, ?_, hp⟩
    split <;> rfl
  | cons c cs ih =>
    rw [flatten_cons, ← append_assoc] at hshort ⊢
    rw [feed_cons]
    dsimp only
    by_cases hlen : (partialTail (p ++ c)).length ≤ maxPartialTailLength
    · have hheld := partialTail_heldBack (p ++ c)
      have hwhole : p ++ c ++ cs.flatten =
          beforeTail (p ++ c) ++ (partialTail (p ++ c) ++ cs.flatten) := by
        rw [← append_assoc, beforeTail_append]
      have hcut : ¬ GlobalMatch.Spans privateModes (beforeTail (p ++ c))
          (partialTail (p ++ c) ++ cs.flatten) :=
        (uncrossed_tail (append_nil _)).not_spans
      rw [hwhole] at hshort ⊢
      obtain ⟨htext, hheard, hrest⟩ := ih hheld (hshort.suffix (suffix_append _ _))
      rw [stripperPush_held hlen, textOf_append, transitionsOf_append, textOf_release,
        transitionsOf_release, append_assoc, htext, hheard, detect_append hcut, strip_cut hcut]
      refine ⟨rfl, ?_, hrest⟩
      split <;> rfl
    · have hcut := not_spans_released hshort hlen
      obtain ⟨htext, hheard, hrest⟩ := ih (p := []) (.inl rfl) (hshort.suffix (suffix_append _ _))
      rw [stripperPush_released hlen, textOf_append, transitionsOf_append, textOf_release,
        transitionsOf_release, append_assoc, htext, hheard, detect_append hcut, strip_cut hcut]
      refine ⟨rfl, ?_, hrest⟩
      split <;> rfl

/-! ## the renderer in pieces -/

def stripSgrBackgroundColors (data : JsString) : JsString :=
  let pushed := sgrPush [] data
  pushed.2 ++ pushed.1

theorem stripSgrBackgroundColors_eq (data : JsString) :
    stripSgrBackgroundColors data = (scan none data).1 ++ (scan none data).2 := by
  by_cases h : (scan none data).2.length ≤ maxPendingSgrLength
  · have hpush : sgrPush [] data = ((scan none data).2, (scan none data).1) := sgrPush_held h
    rw [stripSgrBackgroundColors, hpush]
  have hpush : sgrPush [] data = ([], (scan none data).1 ++ (scan none data).2) :=
    sgrPush_released h
  rw [stripSgrBackgroundColors, hpush]
  exact append_nil _

def intermediate (context : TerminalDataRenderContext) (whole : JsString) : JsString :=
  if context.stripBackgroundColors then stripSgrBackgroundColors whole else whole

def wanted (context : TerminalDataRenderContext) (whole : JsString) : JsString :=
  if context.keepCliOutputInNormalBuffer then
    stripAlternateBufferSequences (intermediate context whole)
  else intermediate context whole

/-- the renderer of a view that has rendered the pieces, and all that came out -/
def renderAll (onStrippedTransition : Bool) (context : TerminalDataRenderContext)
    (cs : List JsString) : TerminalDataRenderer × List RenderEffect :=
  feed (fun r data => renderEffects onStrippedTransition r data context)
    createTerminalDataRenderer cs

/-- the outputs and what is still held back are what should come out of the whole, and the listener
has heard its transitions -/
structure AsWhole (onStrippedTransition : Bool) (context : TerminalDataRenderContext)
    (cs : List JsString) : Prop where
  text : textOf (renderAll onStrippedTransition context cs).2 ++
      (renderAll onStrippedTransition context cs).1.pending.2 ++
      (renderAll onStrippedTransition context cs).1.pending.1 = wanted context cs.flatten
  transitions : transitionsOf (renderAll onStrippedTransition context cs).2 =
    if onStrippedTransition ∧ context.keepCliOutputInNormalBuffer then
      detectAlternateBufferTransitions (intermediate context cs.flatten) else []

theorem filterIf_pieces {context : TerminalDataRenderContext}
    (hshort : context.stripBackgroundColors = true →
      SequencesWithin maxPendingSgrLength cs.flatten) :
    (feed (filterIf context.stripBackgroundColors sgrPush) [] cs).2 ++
        (feed (filterIf context.stripBackgroundColors sgrPush) [] cs).1 =
          intermediate context cs.flatten ∧
      Unfinished (feed (filterIf context.stripBackgroundColors sgrPush) [] cs).1 := by
  unfold intermediate
  cases hc : context.stripBackgroundColors with
  | true =>
    obtain ⟨htext, hrest⟩ := background_pieces (p := []) (.inl rfl) (hshort hc)
    rw [nil_append] at htext
    rw [if_pos rfl, stripSgrBackgroundColors_eq]
    exact ⟨htext, hrest⟩
  | false =>
    have hpass : feed (filterIf false sgrPush) [] cs = ([], cs.flatten) := by
      induction cs with
      | nil => rfl
      | cons c cs ih =>
        rw [feed_cons]
        show ((feed (filterIf false sgrPush) [] cs).1, c ++ (feed (filterIf false sgrPush) [] cs).2) = _
        rw [ih fun h => absurd (hc.symm.trans h) (by decide), flatten_cons]
    rw [hpass]
    exact ⟨append_nil _, .inl rfl⟩

theorem stripperIf_off (onTransition : Bool) (cs : List JsString) :
    feed (stripperIf onTransition false) [] cs = ([], cs.flatten.map .text) := by
  induction cs with
  | nil => rfl
  | cons c cs ih =>
    rw [feed_cons]
    show ((feed (stripperIf onTransition false) [] cs).1,
      c.map .text ++ (feed (stripperIf onTransition false) [] cs).2) = _
    rw [ih, flatten_cons, map_append]

theorem Unfinished.head (h : Unfinished p) : p = [] ∨ p.head? = some esc := by
  rcases h with rfl | rfl | ⟨x, rfl, -⟩
  · exact .inl rfl
  · exact .inr rfl
  · exact .inr rfl

theorem Unfinished.no_terminator (h : Unfinished p) {t : UInt16} (ht : t = 0x68 ∨ t = 0x6c) :
    t ∉ p := by
  have hfinal : isFinal t = true := by
    rcases ht with rfl | rfl <;> decide
  intro hmem
  rcases h with rfl | rfl | ⟨x, rfl, hx⟩
  · exact absurd hmem (by simp)
  · rw [mem_singleton] at hmem
    subst hmem
    exact absurd ht (by decide)
  rw [mem_cons, mem_cons] at hmem
  rcases hmem with rfl | rfl | hmem
  · exact absurd ht (by decide)
  · exact absurd ht (by decide)
  · rw [hx t hmem] at hfinal
    exact absurd hfinal (by decide)

/-- **In pieces, the renderer gives what the two strippers give for the whole.** -/
theorem renderer_pieces (onStrippedTransition : Bool) (context : TerminalDataRenderContext)
    (cs : List JsString)
    (hsequences : context.stripBackgroundColors = true →
      SequencesWithin maxPendingSgrLength cs.flatten)
    (hmodes : context.keepCliOutputInNormalBuffer = true →
      ModesWithin maxPartialTailLength (intermediate context cs.flatten)) :
    AsWhole onStrippedTransition context cs := by
  obtain ⟨hbackground, hrest⟩ := filterIf_pieces hsequences
  have hsees := renderEffects_sees onStrippedTransition context
  have heffects : (renderAll onStrippedTransition context cs).2 = _ :=
    hsees.feed (serves_fresh context) cs
  have hpending : (renderAll onStrippedTransition context cs).1.pending = _ :=
    hsees.feed_state (serves_fresh context) cs
  rw [show createTerminalDataRenderer.pending = ([], []) from rfl, effectFilters, feed_comp]
    at heffects hpending
  rw [← flatten_outs] at hbackground
  generalize outs (filterIf context.stripBackgroundColors sgrPush) [] cs = ds at *
  generalize (feed (filterIf context.stripBackgroundColors sgrPush) [] cs).1 = p at *
  have hcut : ¬ GlobalMatch.Spans privateModes ds.flatten p :=
    privateModes_anchored.not_spans _ hrest.head
  have hnone := fun t ht => hrest.no_terminator (t := t) ht
  cases hkeep : context.keepCliOutputInNormalBuffer with
  | false =>
    rw [hkeep, stripperIf_off] at heffects hpending
    refine ⟨?_, ?_⟩
    · rw [heffects, hpending, wanted, hkeep, ← hbackground, textOf_text, append_nil]
      rfl
    · rw [heffects, hkeep, transitionsOf_text, if_neg fun h => (by cases h.2)]
  | true =>
    have hshort : ModesWithin maxPartialTailLength ([] ++ ds.flatten) := by
      have hall := hmodes hkeep
      rw [← hbackground] at hall
      exact hall.left
    obtain ⟨htext, hheard, -⟩ := stripper_pieces onStrippedTransition (.inl rfl) hshort
    rw [nil_append] at htext hheard
    rw [hkeep] at heffects hpending
    refine ⟨?_, ?_⟩
    · rw [heffects, hpending, wanted, hkeep, ← hbackground, if_pos rfl, strip_cut hcut,
        strip_eq_self hnone, ← htext]
      rfl
    rw [heffects, hkeep, ← hbackground, detect_append hcut, detect_eq_nil hnone, append_nil]
    refine hheard.trans ?_
    simp

/-- a test of the source, with a coloured cell before the sequence -/
theorem splitMode_renders :
    AsWhole true ⟨true, none, true⟩
      (["a\x1b[4", "1mb\x1b[?10", "49hb\x1b[?1049", "lc\x1b["].map JsString.ofString) :=
  renderer_pieces true ⟨true, none, true⟩ _ (fun _ => by decide) (fun _ => by decide)

/-- a reverse video between an escape and the rest of a private mode sequence: once it is gone, the
sequence is longer than what the stripper holds back -/
def splicedPieces : List JsString :=
  ["\x1b\x1b[7;7m[?11111111111111111111111111111;1049", "h"].map JsString.ofString

theorem splicedPieces_differ :
    SequencesWithin maxPendingSgrLength splicedPieces.flatten ∧
      ModesWithin maxPartialTailLength splicedPieces.flatten ∧
      ¬ AsWhole true ⟨true, none, true⟩ splicedPieces := by
  refine ⟨by decide, by decide, fun h => ?_⟩
  cases h.text

end CcPanes

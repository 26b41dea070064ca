import CcPanes.Foundation.Separated
import CcPanes.View.RenderEffects

/-!
# Stripping the alternate screen completely

`stripAlternateBufferSequences` makes one pass.  A sequence that it removes may stand inside another
one, whose two halves meet in the result.
-/

namespace CcPanes.AlternateScreen
open Transducer List

variable {m : PrivateMode}

def paramsOf (m : PrivateMode) : List JsString := m.1.splitOn semicolon

def Alternate (m : PrivateMode) : Prop := ∃ param ∈ paramsOf m, param ∈ alternateBufferModes

def OnlyAlternate (m : PrivateMode) : Prop := ∀ param ∈ paramsOf m, param ∈ alternateBufferModes

instance (m : PrivateMode) : Decidable (Alternate m) :=
  inferInstanceAs (Decidable (∃ param ∈ paramsOf m, param ∈ alternateBufferModes))

/-- no complete sequence with an alternate-screen mode is left in the text -/
def Complete (text : JsString) : Prop := ¬ GlobalMatch.HasBad privateModes Alternate text

/-- such a sequence stands in the text, cut by others that have alternate-screen modes only -/
def Interrupted (text : JsString) : Prop :=
  GlobalMatch.Interrupted privateModes Alternate OnlyAlternate text

/-! ## one sequence -/

def keptOf (m : PrivateMode) : List JsString :=
  (paramsOf m).filter (!alternateBufferModes.contains ·)

theorem keepOtherModes_def (m : PrivateMode) : keepOtherModes m.1 m.2 =
    if (keptOf m).length = (paramsOf m).length then privateModeSequence m.1 m.2
    else if keptOf m = [] then []
    else privateModeSequence ([semicolon].intercalate (keptOf m)) m.2 := rfl

theorem keptOf_eq (h : ¬ Alternate m) : keptOf m = paramsOf m := by
  refine filter_eq_self.mpr fun param hparam => ?_
  have hnot : param ∉ alternateBufferModes := fun hmem => h ⟨param, hparam, hmem⟩
  simpa using hnot

theorem keptOf_fewer (h : Alternate m) : (keptOf m).length ≠ (paramsOf m).length := by
  obtain ⟨param, hparam, hmem⟩ := h
  intro hlen
  have hall := length_filter_eq_length_iff.mp hlen param hparam
  exact absurd hmem (by simpa using hall)

theorem keptOf_nil (h : OnlyAlternate m) : keptOf m = [] := by
  refine filter_eq_nil_iff.mpr fun param hparam => ?_
  simpa using h param hparam

theorem keptOf_ne_nil (h : ¬ OnlyAlternate m) : keptOf m ≠ [] := by
  intro hnil
  refine h fun param hparam => ?_
  simpa using filter_eq_nil_iff.mp hnil param hparam

theorem keptOf_valid (hm : privateModes.Valid m) (hne : keptOf m ≠ []) :
    privateModes.Valid ([semicolon].intercalate (keptOf m), m.2) ∧
      paramsOf ([semicolon].intercalate (keptOf m), m.2) = keptOf m := by
  obtain ⟨hlist, ht⟩ := hm
  rw [isParamList, Bool.and_eq_true, all_eq_true, all_eq_true] at hlist
  have hmem : ∀ part ∈ keptOf m, part ∈ paramsOf m := fun part h => mem_of_mem_filter h
  have hsplit : ([semicolon].intercalate (keptOf m)).splitOn semicolon = keptOf m :=
    splitOn_intercalate semicolon (fun part h => Separated.sep_notMem (hmem part h)) hne
  refine ⟨⟨?_, ht⟩, hsplit⟩
  rw [isParamList, Bool.and_eq_true, all_eq_true, all_eq_true]
  refine ⟨fun c hc => ?_, fun part hpart => ?_⟩
  · rcases Separated.mem_of_mem_intercalate hc with rfl | ⟨part, hpart, hc⟩
    · decide
    · exact hlist.1 c (Separated.mem_of_mem_splitOn (hmem part hpart) hc).1
  · rw [hsplit] at hpart
    exact hlist.2 part (hmem part hpart)

theorem keepOtherModes_cleans : GlobalMatch.Cleaning privateModes Alternate OnlyAlternate
    fun m => keepOtherModes m.1 m.2 where
  same := by
    intro m _ hgood
    rw [keepOtherModes_def, keptOf_eq hgood, if_pos rfl]
    rfl
  gone := by
    intro m _ hgone
    have hne : paramsOf m ≠ [] := splitOn_ne_nil semicolon m.1
    have hlen : ¬ ([] : List JsString).length = (paramsOf m).length := fun h =>
      hne (length_eq_zero_iff.mp h.symm)
    rw [keepOtherModes_def, keptOf_nil hgone, if_neg hlen, if_pos rfl]
  better := by
    intro m hm hbad hgone
    have hne := keptOf_ne_nil hgone
    obtain ⟨hvalid, hparams⟩ := keptOf_valid hm hne
    refine ⟨_, hvalid, ?_, ?_⟩
    · rintro ⟨param, hparam, hmem⟩
      rw [hparams] at hparam
      have hnot := of_mem_filter hparam
      exact absurd hmem (by simpa using hnot)
    · rw [keepOtherModes_def, if_neg (keptOf_fewer hbad), if_neg hne]
      rfl
  shorter := by
    intro m _ hbad
    have hfewer := keptOf_fewer hbad
    have htext : (privateModes.text m).length = m.1.length + 4 := by
      show (esc :: bracket :: question :: (m.1 ++ [m.2])).length = _
      simp only [length_cons, length_append, length_nil]
    rw [keepOtherModes_def, if_neg hfewer, htext]
    by_cases hnil : keptOf m = []
    · rw [if_pos hnil, length_nil]
      omega
    have hless := Separated.length_intercalate_filter semicolon hnil hfewer
    rw [paramsOf, intercalate_splitOn] at hless
    rw [if_neg hnil, privateModeSequence]
    simp only [length_cons, length_append, length_nil]
    have hkept : ([semicolon].intercalate (keptOf m)).length < m.1.length := hless
    omega

theorem strip_complete_iff (text : JsString) :
    Complete (stripAlternateBufferSequences text) ↔ ¬ Interrupted text := by
  rw [strip_eq_replace]
  exact not_congr
    (GlobalMatch.bad_replace_iff privateModes_anchored keepOtherModes_cleans text)

theorem strip_eq_self_iff (text : JsString) :
    stripAlternateBufferSequences text = text ↔ Complete text := by
  rw [strip_eq_replace]
  exact keepOtherModes_cleans.replace_eq_self_iff privateModes_anchored text

/-! ## a stream -/

def drained (onTransition : Bool) (cs : List JsString) : List RenderEffect :=
  (feed (stripperPush onTransition) [] cs).2 ++
    stripperFlush onTransition (feed (stripperPush onTransition) [] cs).1

theorem drained_text (onTransition : Bool) {cs : List JsString}
    (hshort : ModesWithin maxPartialTailLength cs.flatten) :
    textOf (drained onTransition cs) = stripAlternateBufferSequences cs.flatten := by
  obtain ⟨htext, -, hrest⟩ := stripper_pieces onTransition (p := []) (.inl rfl) hshort
  have hnone := fun t ht => hrest.no_terminator (t := t) ht
  rw [nil_append] at htext
  rw [drained, stripperFlush, textOf_append, textOf_release, strip_eq_self hnone, htext]

/-- **The stripping is complete, and a second one changes nothing, exactly where no sequence is
interrupted by removed ones.** -/
theorem stripping_complete_iff (text : JsString) :
    (stripAlternateBufferSequences (stripAlternateBufferSequences text) =
      stripAlternateBufferSequences text ↔ ¬ Interrupted text) ∧
    ∀ onTransition cs, cs.flatten = text → ModesWithin maxPartialTailLength text →
      (Complete (textOf (drained onTransition cs)) ↔ ¬ Interrupted text) := by
  refine ⟨?_, ?_⟩
  · rw [strip_eq_self_iff, strip_complete_iff]
  · rintro onTransition cs rfl hshort
    rw [drained_text onTransition hshort, strip_complete_iff]

/-- a sequence cut in two, of which the cursor mode stays -/
theorem splitMode_complete :
    Complete (textOf (drained true (["a\x1b[?10", "49;25hb"].map JsString.ofString))) ↔
      ¬ Interrupted ((["a\x1b[?10", "49;25hb"].map JsString.ofString)).flatten :=
  (stripping_complete_iff _).2 true _ rfl (by decide)

/-- `ESC[?10` and `49h` around a sequence that goes -/
def interruptedPieces : List JsString := ["\x1b[?10\x1b[?1049h49h"].map JsString.ofString

theorem interruptedPieces_left :
    ModesWithin maxPartialTailLength interruptedPieces.flatten ∧
      ¬ Complete (textOf (drained true interruptedPieces)) ∧
      stripAlternateBufferSequences (stripAlternateBufferSequences interruptedPieces.flatten) ≠
        stripAlternateBufferSequences interruptedPieces.flatten := by
  refine ⟨by decide, fun h => h ?_, by decide⟩
  exact ⟨(JsString.ofString "1049", 0x68), ⟨by decide, .inl rfl⟩, by decide, [], [], by decide⟩

end CcPanes.AlternateScreen

import CcPanes.Foundation.MarkerRemoval

/-!
# Bracketed paste

`wrap_bracketed_paste` of `terminal_service.rs`: the text between the start and the end marker of
the bracketed-paste protocol, embedded end markers removed by one `str::replace`.

`wrapBracketedPaste_closed_iff`: the paste is closed exactly once, by its last marker, exactly if
the text does not reassemble an end marker around a removed one.
-/

namespace CcPanes
open MarkerRemoval

def bracketedPasteStart : String := "\x1b[200~"
def bracketedPasteEnd : String := "\x1b[201~"

/-- `text.replace(BRACKETED_PASTE_END, "")` -/
def sanitizePaste (text : String) : String :=
  String.ofList (removeAll bracketedPasteEnd.toList text.toList)

def wrapBracketedPaste (text : String) : String :=
  bracketedPasteStart ++ sanitizePaste text ++ bracketedPasteEnd

def ClosedOnce (out : String) : Prop :=
  bracketedPasteEnd.toList <:+ out.toList ∧
    ∀ a b : List Char, out.toList = a ++ (bracketedPasteEnd.toList ++ b) → b = []

def CarriedVerbatim (text : String) : Prop :=
  ¬ bracketedPasteEnd.toList <:+: text.toList →
    wrapBracketedPaste text = bracketedPasteStart ++ text ++ bracketedPasteEnd

def pasteEndRest : List Char := ['[', '2', '0', '1', '~']

theorem bracketedPasteEnd_toList : bracketedPasteEnd.toList = '\x1b' :: pasteEndRest := by decide

theorem escape_not_mem_rest : '\x1b' ∉ pasteEndRest := by decide

theorem wrapBracketedPaste_toList (text : String) :
    (wrapBracketedPaste text).toList = bracketedPasteStart.toList
      ++ removeAll bracketedPasteEnd.toList text.toList ++ bracketedPasteEnd.toList := by
  unfold wrapBracketedPaste sanitizePaste
  rw [String.toList_append, String.toList_append, String.toList_ofList]

theorem carriedVerbatim (text : String) : CarriedVerbatim text := by
  intro h
  unfold wrapBracketedPaste sanitizePaste
  rw [removeAll_eq_self h, String.ofList_toList]

theorem infix_start_append (s : List Char)
    (h : '\x1b' :: pasteEndRest <:+: bracketedPasteStart.toList ++ s) :
    '\x1b' :: pasteEndRest <:+: s := by
  have hstart : bracketedPasteStart.toList = ['\x1b', '[', '2', '0', '0', '~'] := by decide
  rw [hstart] at h
  simpa [pasteEndRest, List.infix_cons_iff, List.cons_prefix_cons] using h

/-- **Bracketed paste cannot be escaped, unless the text reassembles an end marker**: six symbols
of the marker in order with at least one whole marker inserted between them. -/
theorem wrapBracketedPaste_closed_iff (text : String) :
    (ClosedOnce (wrapBracketedPaste text) ∧ CarriedVerbatim text) ↔
      ¬ Reassembles '\x1b' pasteEndRest text.toList := by
  rw [← infix_removeAll_iff escape_not_mem_rest]
  constructor
  · rintro ⟨⟨_, honce⟩, _⟩ ⟨x, y, hxy⟩
    have hy : y ++ bracketedPasteEnd.toList = [] := by
      apply honce (bracketedPasteStart.toList ++ x)
      rw [wrapBracketedPaste_toList, bracketedPasteEnd_toList, ← hxy]
      simp
    have hne : bracketedPasteEnd.toList ≠ [] := by decide
    exact hne (List.append_eq_nil_iff.mp hy).2
  intro hclean
  refine ⟨⟨?_, ?_⟩, carriedVerbatim text⟩
  · rw [wrapBracketedPaste_toList]
    exact List.suffix_append _ _
  intro a b hab
  rw [wrapBracketedPaste_toList, bracketedPasteEnd_toList] at hab
  rcases append_marker_eq escape_not_mem_rest hab with hb | hin
  · exact hb
  · exact absurd (infix_start_append _ hin) hclean

def splitMarkerText : String := "\x1b[20\x1b[201~1~\r"

/-- the text comes out with an end marker before its own Enter -/
theorem splitMarkerText_escapes :
    wrapBracketedPaste splitMarkerText = "\x1b[200~\x1b[201~\r\x1b[201~" ∧
      ¬ ClosedOnce (wrapBracketedPaste splitMarkerText) := by
  have hout : wrapBracketedPaste splitMarkerText = "\x1b[200~\x1b[201~\r\x1b[201~" := by decide
  refine ⟨hout, ?_⟩
  rintro ⟨_, honce⟩
  have hb : '\r' :: bracketedPasteEnd.toList = [] := by
    apply honce bracketedPasteStart.toList
    rw [hout]
    decide
  cases hb

end CcPanes

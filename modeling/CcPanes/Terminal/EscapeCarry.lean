import CcPanes.Foundation.Transducer
import CcPanes.Terminal.TitleScan
import Mathlib.Data.List.Infix

/-!
# The escape sequence at the end of a chunk

`split_trailing_incomplete_escape` of `terminal_service.rs`, and the carry of `OutputBuffer::push`.
The text of a chunk is stripped of its escape sequences, so a sequence that the end of the chunk
cuts in two is held back and put before the next chunk.

The lines of the buffer, which the stripped text goes to, are not part of the model.
-/

namespace CcPanes.EscapeCarry
open List

variable {c : Char} {t : Text}



abbrev Text := List Char

def maxCsiCarry : Nat := 128
def maxStringEscapeCarry : Nat := 4096

/-- `OSC`, `DCS`, `SOS`, `PM` and `APC` -/
def stringKinds : List Char := [']', 'P', 'X', '^', '_']

/-- the byte behind the escape is a character where it is one of these kinds -/
def escapeCarryLimit (candidate : Text) : Nat :=
  match candidate[1]? with
  | some kind => if kind ∈ stringKinds then maxStringEscapeCarry else maxCsiCarry
  | none => maxCsiCarry

def inRange (lo hi : Nat) (c : Char) : Bool := lo ≤ c.toNat && c.toNat ≤ hi

def isFinal (c : Char) : Bool := inRange 0x40 0x7e c

def isCompleteEscape (candidate : Text) : Bool :=
  match candidate[1]? with
  | none => false
  | some kind =>
    if kind = '[' then (candidate.drop 2).any isFinal
    else if kind ∈ stringKinds then
      (candidate.drop 2).contains belChar || decide ([escChar, '\\'] <:+: candidate.drop 2)
    else true

def rfind (c : Char) : Text → Option Nat
  | [] => none
  | d :: ds =>
    match rfind c ds with
    | some i => some (i + 1)
    | none => if d = c then some 0 else none

def splitTrailingIncompleteEscape (text : Text) : Text × Text :=
  match rfind escChar text with
  | none => (text, [])
  | some escAt =>
    let candidate := text.drop escAt
    if byteLen candidate > escapeCarryLimit candidate ∨ isCompleteEscape candidate then (text, [])
    else (text.take escAt, candidate)

/-- what `push` does with a chunk before it cuts it into lines: the new carry, and the clean text -/
def pushEscapes (stripAnsi : Text → Text) (escapeCarry text : Text) : Text × Text :=
  let joined := escapeCarry ++ text
  ((splitTrailingIncompleteEscape joined).2, stripAnsi (splitTrailingIncompleteEscape joined).1)

/-! ## the split -/

theorem rfind_none {text : Text} (h : c ∉ text) : rfind c text = none := by
  induction text with
  | nil => rfl
  | cons d ds ih =>
    rw [mem_cons, not_or] at h
    rw [rfind, ih h.2]
    exact if_neg (Ne.symm h.1)

theorem rfind_last (head : Text) {tail : Text} (h : c ∉ tail) :
    rfind c (head ++ c :: tail) = some head.length := by
  induction head with
  | nil =>
    rw [nil_append, rfind, rfind_none h]
    exact if_pos rfl
  | cons d ds ih => rw [cons_append, rfind, ih]; rfl

theorem split_none (h : escChar ∉ t) : splitTrailingIncompleteEscape t = (t, []) := by
  unfold splitTrailingIncompleteEscape
  rw [rfind_none h]

theorem split_last (head : Text) {tail : Text} (h : escChar ∉ tail) :
    splitTrailingIncompleteEscape (head ++ escChar :: tail) =
      if byteLen (escChar :: tail) > escapeCarryLimit (escChar :: tail) ∨
          isCompleteEscape (escChar :: tail) then (head ++ escChar :: tail, [])
      else (head, escChar :: tail) := by
  unfold splitTrailingIncompleteEscape
  rw [rfind_last head h]
  dsimp only
  rw [drop_left, take_left]

structure Held (u : Text) : Prop where
  shape : ∃ tail, u = escChar :: tail ∧ escChar ∉ tail
  short : byteLen u ≤ escapeCarryLimit u
  unfinished : isCompleteEscape u = false

/-- **A beginning is held back whole.** -/
theorem split_held (head : Text) {u : Text} (h : Held u) :
    splitTrailingIncompleteEscape (head ++ u) = (head, u) := by
  obtain ⟨tail, rfl, htail⟩ := h.shape
  rw [split_last head htail]
  apply if_neg
  rw [not_or, h.unfinished]
  exact ⟨Nat.not_lt.mpr h.short, Bool.false_ne_true⟩

theorem exists_last {text : Text} (h : c ∈ text) :
    ∃ head tail, text = head ++ c :: tail ∧ c ∉ tail := by
  induction text with
  | nil => cases h
  | cons d ds ih =>
    by_cases hds : c ∈ ds
    · obtain ⟨head, tail, htext, htail⟩ := ih hds
      exact ⟨d :: head, tail, by rw [htext, cons_append], htail⟩
    · obtain rfl | hmem := mem_cons.mp h
      · exact ⟨[], ds, rfl, hds⟩
      · exact absurd hmem hds

theorem split_carry (t : Text) :
    splitTrailingIncompleteEscape (splitTrailingIncompleteEscape t).2 =
      ([], (splitTrailingIncompleteEscape t).2) := by
  by_cases h : escChar ∈ t
  · obtain ⟨head, tail, rfl, htail⟩ := exists_last h
    have hagain := split_last [] htail
    rw [split_last head htail]
    split_ifs with hdone
    · rfl
    · rw [if_neg hdone] at hagain
      exact hagain
  · rw [split_none h]
    rfl

/-! ## streams -/

inductive Item where
  | plain (c : Char)
  | csi (params inters : Text) (final : Char)
  | nf (inters : Text) (final : Char)
  | two (final : Char)
  | str (kind : Char) (body : Text) (bellEnded : Bool)

def Item.text : Item → Text
  | .plain c => [c]
  | .csi params inters final => escChar :: '[' :: (params ++ inters ++ [final])
  | .nf inters final => escChar :: (inters ++ [final])
  | .two final => [escChar, final]
  | .str kind body true => escChar :: kind :: (body ++ [belChar])
  | .str kind body false => escChar :: kind :: (body ++ [escChar] ++ ['\\'])

def isStringChar (c : Char) : Bool :=
  inRange 0x08 0x0d c || inRange 0x20 0x7e c || 0xa0 ≤ c.toNat

/-- plain text, or a complete sequence that is not longer than what may be held back -/
def Item.Valid : Item → Prop
  | .plain c => c ≠ escChar
  | .csi params inters final => (∀ c ∈ params, inRange 0x30 0x3f c) ∧
      (∀ c ∈ inters, inRange 0x20 0x2f c) ∧ isFinal final ∧
      byteLen (Item.csi params inters final).text ≤ maxCsiCarry
  | .nf inters final => inters ≠ [] ∧ (∀ c ∈ inters, inRange 0x20 0x2f c) ∧
      inRange 0x30 0x7e final ∧ byteLen (Item.nf inters final).text ≤ maxCsiCarry
  | .two final => inRange 0x30 0x7e final ∧ final ∉ '[' :: stringKinds
  | .str kind body bellEnded => kind ∈ [']', 'P'] ∧ (∀ c ∈ body, isStringChar c) ∧
      byteLen (Item.str kind body bellEnded).text ≤ maxStringEscapeCarry

def text (items : List Item) : Text := items.flatMap Item.text

theorem text_append (a b : List Item) : text (a ++ b) = text a ++ text b := flatMap_append

theorem text_cons (i : Item) (items : List Item) : text (i :: items) = i.text ++ text items := rfl

theorem Item.text_ne_nil (i : Item) : i.text ≠ [] := by
  unfold Item.text
  split <;> exact cons_ne_nil _ _

/-! ## behind complete sequences -/

theorem ne_esc_of_range {lo hi : Nat} (h : inRange lo hi c) (hlo : 0x1b < lo) : c ≠ escChar := by
  rintro rfl
  have hle : lo ≤ 0x1b := of_decide_eq_true (Bool.and_eq_true_iff.mp h).1
  omega

theorem widen_range {lo hi lo' hi' : Nat} (h : inRange lo hi c) (hlo : lo' ≤ lo) (hhi : hi ≤ hi') :
    inRange lo' hi' c := by
  have hle : lo ≤ c.toNat := of_decide_eq_true (Bool.and_eq_true_iff.mp h).1
  have hge : c.toNat ≤ hi := of_decide_eq_true (Bool.and_eq_true_iff.mp h).2
  exact Bool.and_eq_true_iff.mpr
    ⟨decide_eq_true (hlo.trans hle), decide_eq_true (hge.trans hhi)⟩

theorem stringChar_ne (h : isStringChar c) : c ≠ escChar ∧ c ≠ belChar := by
  refine ⟨?_, ?_⟩
  · rintro rfl
    cases h
  · rintro rfl
    cases h

def Settled (t : Text) : Prop :=
  escChar ∉ t ∨ ∃ head tail, t = head ++ escChar :: tail ∧ escChar ∉ tail ∧
    isCompleteEscape (escChar :: tail)

theorem split_settled (h : Settled t) : splitTrailingIncompleteEscape t = (t, []) := by
  obtain h | ⟨head, tail, rfl, htail, hdone⟩ := h
  · exact split_none h
  · rw [split_last head htail, if_pos (.inr hdone)]

theorem complete_snoc {tail : Text} (h : isCompleteEscape (escChar :: tail)) (c : Char) :
    isCompleteEscape (escChar :: (tail ++ [c])) := by
  cases tail with
  | nil => cases h
  | cons kind rest =>
    change (if kind = '[' then rest.any isFinal
      else if kind ∈ stringKinds then
        rest.contains belChar || decide ([escChar, '\\'] <:+: rest) else true) = true at h
    show (if kind = '[' then (rest ++ [c]).any isFinal
      else if kind ∈ stringKinds then
        (rest ++ [c]).contains belChar || decide ([escChar, '\\'] <:+: rest ++ [c]) else true) = true
    split_ifs at h ⊢
    · rw [any_append, h]
      rfl
    · rw [Bool.or_eq_true, decide_eq_true_iff] at h ⊢
      obtain h | h := h
      · left
        rw [contains_iff_mem] at h ⊢
        exact mem_append_left _ h
      · exact .inr (h.trans (prefix_append rest [c]).isInfix)
    · rfl

theorem settled_plain (h : Settled t) (hc : c ≠ escChar) : Settled (t ++ [c]) := by
  obtain h | ⟨head, tail, rfl, htail, hdone⟩ := h
  · left
    rw [mem_append, mem_singleton]
    rintro (hmem | rfl)
    · exact h hmem
    · exact hc rfl
  · right
    refine ⟨head, tail ++ [c], ?_, ?_, complete_snoc hdone c⟩
    · rw [append_assoc, cons_append]
    rw [mem_append, mem_singleton]
    rintro (hmem | rfl)
    · exact htail hmem
    · exact hc rfl

theorem not_mem_snoc {c d : Char} (ht : d ∉ t) (hc : c ≠ d) : d ∉ t ++ [c] := by
  rw [mem_append, mem_singleton]
  rintro (hmem | rfl)
  · exact ht hmem
  · exact hc rfl

theorem not_mem_range {lo hi : Nat} (h : ∀ c ∈ t, inRange lo hi c) (hlo : 0x1b < lo) :
    escChar ∉ t := fun hmem => ne_esc_of_range (h escChar hmem) hlo rfl

theorem not_mem_string {body : Text} (h : ∀ c ∈ body, isStringChar c) :
    escChar ∉ body ∧ belChar ∉ body :=
  ⟨fun hmem => (stringChar_ne (h escChar hmem)).1 rfl,
    fun hmem => (stringChar_ne (h belChar hmem)).2 rfl⟩

theorem string_kind {kind : Char} (h : kind ∈ [']', 'P']) :
    kind ≠ '[' ∧ kind ∈ stringKinds ∧ kind ≠ escChar := by
  obtain rfl | h := mem_cons.mp h
  · decide
  · obtain rfl := mem_singleton.mp h
    decide

theorem complete_string {kind : Char} (h : kind ∈ [']', 'P']) (rest : Text) :
    isCompleteEscape (escChar :: kind :: rest) =
      (rest.contains belChar || decide ([escChar, '\\'] <:+: rest)) := by
  obtain ⟨hcsi, hkind, -⟩ := string_kind h
  exact (if_neg hcsi).trans (if_pos hkind)

theorem complete_short {kind : Char} (h : kind ∉ '[' :: stringKinds) (rest : Text) :
    isCompleteEscape (escChar :: kind :: rest) = true := by
  rw [List.mem_cons, not_or] at h
  exact (if_neg h.1).trans (if_neg h.2)

theorem inter_not_kind (h : inRange 0x20 0x2f c) : c ∉ '[' :: stringKinds := by
  have hle : c.toNat ≤ 0x2f := of_decide_eq_true (Bool.and_eq_true_iff.mp h).2
  have hkinds : ∀ d ∈ '[' :: stringKinds, 0x2f < d.toNat := by simp [stringKinds]
  intro hmem
  have := hkinds c hmem
  omega

theorem settled_item {head : Text} (h : Settled head) {i : Item} (hv : i.Valid) :
    Settled (head ++ i.text) := by
  cases i with
  | plain => exact settled_plain h hv
  | csi params inters final =>
    obtain ⟨hparams, hinters, hfinal, -⟩ := hv
    have hbody : escChar ∉ params ++ inters := by
      rw [mem_append, not_or]
      exact ⟨not_mem_range hparams (by decide), not_mem_range hinters (by decide)⟩
    refine .inr ⟨head, '[' :: (params ++ inters ++ [final]), rfl, ?_, ?_⟩
    · rw [mem_cons, not_or]
      exact ⟨by decide, not_mem_snoc hbody (ne_esc_of_range hfinal (by decide))⟩
    · show (params ++ inters ++ [final]).any isFinal = true
      rw [any_append, Bool.or_eq_true]
      exact .inr (any_eq_true.mpr ⟨final, mem_singleton_self final, hfinal⟩)
  | nf inters final =>
    obtain ⟨hne, hinters, hfinal, -⟩ := hv
    refine .inr ⟨head, inters ++ [final], rfl, ?_, ?_⟩
    · exact not_mem_snoc (not_mem_range hinters (by decide)) (ne_esc_of_range hfinal (by decide))
    · cases inters with
      | nil => exact absurd rfl hne
      | cons c => exact complete_short (inter_not_kind (hinters c mem_cons_self)) _
  | two final =>
    obtain ⟨hfinal, hkind⟩ := hv
    refine .inr ⟨head, [final], rfl, ?_, complete_short hkind []⟩
    exact not_mem_snoc not_mem_nil (ne_esc_of_range hfinal (by decide))
  | str kind body bellEnded =>
    obtain ⟨hkind, hbody, -⟩ := hv
    cases bellEnded with
    | true =>
      refine .inr ⟨head, kind :: (body ++ [belChar]), rfl, ?_, ?_⟩
      · rw [mem_cons, not_or]
        exact ⟨(string_kind hkind).2.2.symm, not_mem_snoc (not_mem_string hbody).1 (by decide)⟩
      rw [complete_string hkind, Bool.or_eq_true]
      left
      rw [contains_iff_mem]
      exact mem_append_right _ mem_cons_self
    | false =>
      refine .inr ⟨head ++ escChar :: kind :: body, ['\\'], ?_, by decide, by decide⟩
      unfold Item.text
      simp

/-- **Nothing is held back behind complete sequences.** -/
theorem split_items {items : List Item} (hv : ∀ i ∈ items, i.Valid) :
    splitTrailingIncompleteEscape (text items) = (text items, []) := by
  apply split_settled
  induction items using reverseRecOn with
  | nil => exact .inl not_mem_nil
  | append_singleton items i ih =>
    rw [text_append, text_cons]
    show Settled (text items ++ (i.text ++ []))
    rw [append_nil]
    apply settled_item
    · exact ih fun j hj => hv j (mem_append_left _ hj)
    · exact hv i (mem_append_right _ mem_cons_self)

theorem prefix_of_snoc {x u v : Text} {y : Char} (h : x ++ [y] = u ++ v) (hv : v ≠ []) :
    ∃ w, x = u ++ w ∧ v = w ++ [y] := by
  obtain rfl | ⟨w, z, rfl⟩ := v.eq_nil_or_concat
  · exact absurd rfl hv
  rw [concat_eq_append, ← append_assoc] at h
  obtain ⟨hx, hy⟩ := append_inj' h rfl
  rw [concat_eq_append, ← hy]
  exact ⟨w, hx, rfl⟩

theorem byteLen_beginning {t u v : Text} (h : t = u ++ v) {n : Nat} (hn : byteLen t ≤ n) :
    byteLen u ≤ n := by
  rw [h, byteLen_append] at hn
  omega

theorem held_esc : Held [escChar] :=
  ⟨⟨[], rfl, not_mem_nil⟩, by decide, rfl⟩

theorem held_csi {m : Text} (hesc : escChar ∉ m) (hfinal : m.any isFinal = false)
    (hlen : byteLen (escChar :: '[' :: m) ≤ maxCsiCarry) : Held (escChar :: '[' :: m) := by
  refine ⟨⟨'[' :: m, rfl, ?_⟩, hlen, hfinal⟩
  rw [List.mem_cons, not_or]
  exact ⟨by decide, hesc⟩

theorem held_string {kind : Char} (hkind : kind ∈ [']', 'P']) {m : Text}
    (hm : escChar ∉ m ∧ belChar ∉ m)
    (hlen : byteLen (escChar :: kind :: m) ≤ maxStringEscapeCarry) :
    Held (escChar :: kind :: m) := by
  obtain ⟨-, hkinds, hesc⟩ := string_kind hkind
  refine ⟨⟨kind :: m, rfl, ?_⟩, ?_, ?_⟩
  · rw [List.mem_cons, not_or]
    exact ⟨hesc.symm, hm.1⟩
  · have hlimit : escapeCarryLimit (escChar :: kind :: m) = maxStringEscapeCarry := if_pos hkinds
    rw [hlimit]
    exact hlen
  rw [complete_string hkind, Bool.or_eq_false_iff]
  refine ⟨?_, decide_eq_false ?_⟩
  · rw [← Bool.not_eq_true, List.contains_iff_mem]
    exact hm.2
  · intro hfound
    exact hm.1 (hfound.subset List.mem_cons_self)

/-- a beginning of a sequence is held back, unless it ends behind an intermediate of an `nF`
sequence or inside the `ST` of a string -/
theorem cut_item {i : Item} (hvalid : i.Valid) {u v : Text} (h : i.text = u ++ v) (hu : u ≠ [])
    (hv : v ≠ []) :
    Held u ∨
      (∃ inters₁ inters₂ final, i = .nf (inters₁ ++ inters₂) final ∧ inters₁ ≠ [] ∧
        u = escChar :: inters₁ ∧ v = inters₂ ++ [final]) ∨
      ∃ kind body, i = .str kind body false ∧ u = escChar :: kind :: body ++ [escChar] ∧
        v = ['\\'] := by
  obtain ⟨a, u, rfl⟩ := exists_cons_of_ne_nil hu
  cases i with
  | plain =>
    obtain ⟨-, hnil⟩ := cons_eq_cons.mp h
    exact absurd (append_eq_nil_iff.mp hnil.symm).2 hv
  | csi params inters =>
    obtain ⟨rfl, hrest⟩ := cons_eq_cons.mp h
    obtain ⟨hparams, hinters, -, hlen⟩ := hvalid
    cases u with
    | nil => exact .inl held_esc
    | cons b m =>
      obtain ⟨rfl, hm⟩ := cons_eq_cons.mp hrest
      obtain ⟨w, hw, -⟩ := prefix_of_snoc hm hv
      have hmiddle : ∀ c ∈ m, inRange 0x20 0x3f c := by
        intro c hc
        have hmem : c ∈ params ++ inters := by
          rw [hw]
          exact mem_append_left w hc
        obtain hmem | hmem := mem_append.mp hmem
        · exact widen_range (hparams c hmem) (by decide) (by decide)
        · exact widen_range (hinters c hmem) (by decide) (by decide)
      left
      apply held_csi (not_mem_range hmiddle (by decide))
      · rw [any_eq_false]
        intro c hc hfinal
        have hle := of_decide_eq_true (Bool.and_eq_true_iff.mp (hmiddle c hc)).2
        have hge := of_decide_eq_true (Bool.and_eq_true_iff.mp hfinal).1
        omega
      · exact byteLen_beginning h hlen
  | nf inters final =>
    obtain ⟨rfl, hrest⟩ := cons_eq_cons.mp h
    obtain ⟨w, rfl, rfl⟩ := prefix_of_snoc hrest hv
    cases u with
    | nil => exact .inl held_esc
    | cons b m => exact .inr (.inl ⟨b :: m, w, final, rfl, cons_ne_nil b m, rfl, rfl⟩)
  | two =>
    obtain ⟨rfl, hrest⟩ := cons_eq_cons.mp h
    obtain ⟨w, hw, -⟩ := prefix_of_snoc (x := []) hrest hv
    obtain ⟨rfl, -⟩ := append_eq_nil_iff.mp hw.symm
    exact .inl held_esc
  | str kind body bellEnded =>
    obtain ⟨hkind, hbody, hlen⟩ := hvalid
    have hno := not_mem_string hbody
    have hheld : ∀ m w, body = m ++ w → byteLen (escChar :: kind :: m) ≤ maxStringEscapeCarry →
        Held (escChar :: kind :: m) := by
      rintro m w rfl hle
      exact held_string hkind ⟨fun hmem => hno.1 (mem_append_left w hmem),
        fun hmem => hno.2 (mem_append_left w hmem)⟩ hle
    cases bellEnded with
    | true =>
      obtain ⟨rfl, hrest⟩ := cons_eq_cons.mp h
      cases u with
      | nil => exact .inl held_esc
      | cons b m =>
        obtain ⟨rfl, hm⟩ := cons_eq_cons.mp hrest
        obtain ⟨w, hw, -⟩ := prefix_of_snoc hm hv
        exact .inl (hheld m w hw (byteLen_beginning h hlen))
    | false =>
      obtain ⟨rfl, hrest⟩ := cons_eq_cons.mp h
      cases u with
      | nil => exact .inl held_esc
      | cons b m =>
        obtain ⟨rfl, hm⟩ := cons_eq_cons.mp hrest
        obtain ⟨w, hw, rfl⟩ := prefix_of_snoc hm hv
        cases w with
        | nil =>
          rw [append_nil] at hw
          exact .inr (.inr ⟨kind, body, rfl, by rw [← hw]; rfl, rfl⟩)
        | cons x w =>
          obtain ⟨w', hw', -⟩ := prefix_of_snoc hw (cons_ne_nil x w)
          exact .inl (hheld m w' hw' (byteLen_beginning h hlen))

end CcPanes.EscapeCarry

import CcPanes.Terminal.EscapeCarry

/-!
# The plain text of a stream in chunks

What `OutputBuffer::push` makes of the chunks of a stream is the plain text of the whole, unless a
chunk ends inside an `nF` sequence, behind an intermediate: `is_complete_escape` takes two bytes of
it for the whole, and the rest of it is left in the text.
-/

namespace CcPanes.EscapeCarry
open List

variable {items : List Item}

def Item.shown (shown : Char → Bool) : Item → Text
  | .plain c => if shown c then [c] else []
  | _ => []

def visible (shown : Char → Bool) (items : List Item) : Text := items.flatMap (Item.shown shown)

def Unterminated (tail : Text) : Prop := ∃ i v, Item.Valid i ∧ v ≠ [] ∧ i.text = tail ++ v

/-- `strip_ansi_escapes` removes complete sequences and one without an end, and some characters of
the text that cannot be printed -/
structure StripAnsi where
  strip : Text → Text
  shown : Char → Bool
  shown_ascii : ∀ c, inRange 0x20 0x7e c → shown c
  strip_eq : ∀ items tail, (∀ i ∈ items, Item.Valid i) → Unterminated tail →
    strip (text items ++ tail) = visible shown items

structure Stream where
  items : List Item
  valid : ∀ i ∈ items, i.Valid

def Stream.text (s : Stream) : Text := EscapeCarry.text s.items

structure Chunks (s : Stream) where
  pieces : List Text
  flatten_eq : pieces.flatten = s.text

def plainText (stripAnsi : Text → Text) (pieces : List Text) : Text :=
  (Transducer.feed (pushEscapes stripAnsi) [] pieces).2

/-- the beginning of the stream ends behind an intermediate of an `nF` sequence -/
def InsideNf (items : List Item) (a : Text) : Prop :=
  ∃ pre inters₁ inters₂ final post, items = pre ++ .nf (inters₁ ++ inters₂) final :: post ∧
    inters₁ ≠ [] ∧ a = text pre ++ escChar :: inters₁

theorem cut_items {a b : Text} (h : a ++ b = text items) :
    (∃ pre post, items = pre ++ post ∧ a = text pre ∧ b = text post) ∨
      ∃ pre i post u v, items = pre ++ i :: post ∧ a = text pre ++ u ∧ b = v ++ text post ∧
        i.text = u ++ v ∧ u ≠ [] ∧ v ≠ [] := by
  induction items generalizing a with
  | nil =>
    obtain ⟨rfl, rfl⟩ := append_eq_nil_iff.mp h
    exact .inl ⟨[], [], rfl, rfl, rfl⟩
  | cons i items ih =>
    rw [text_cons, append_eq_append_iff] at h
    obtain ⟨w, hi, hb⟩ | ⟨w, ha, hrest⟩ := h
    · by_cases hw : w = []
      · subst hw
        rw [append_nil] at hi
        refine .inl ⟨[i], items, rfl, ?_, hb⟩
        rw [text_cons, hi]
        exact (append_nil a).symm
      · by_cases ha : a = []
        · subst ha
          refine .inl ⟨[], i :: items, rfl, rfl, ?_⟩
          rw [hb, text_cons, hi, nil_append]
        · exact .inr ⟨[], i, items, a, w, rfl, rfl, hb, hi, ha, hw⟩
    · obtain ⟨pre, post, rfl, rfl, hb⟩ | ⟨pre, j, post, u, v, rfl, rfl, hb, hj, hu, hv⟩ :=
        ih hrest.symm
      · exact .inl ⟨i :: pre, post, rfl, by rw [ha, text_cons], hb⟩
      · refine .inr ⟨i :: pre, j, post, u, v, rfl, ?_, hb, hj, hu, hv⟩
        rw [ha, text_cons, append_assoc]

theorem insideNf_cons {i : Item} {x : Text} :
    InsideNf (i :: items) (i.text ++ x) ↔ InsideNf items x := by
  constructor
  · rintro ⟨pre, inters₁, inters₂, final, post, hitems, hne, ha⟩
    cases pre with
    | nil =>
      obtain ⟨rfl, rfl⟩ := cons_eq_cons.mp hitems
      have hlen := congrArg length ha
      simp [Item.text, text] at hlen
    | cons j pre =>
      obtain ⟨rfl, rfl⟩ := cons_eq_cons.mp hitems
      rw [text_cons, append_assoc, append_cancel_left_eq] at ha
      exact ⟨pre, inters₁, inters₂, final, post, rfl, hne, ha⟩
  · rintro ⟨pre, inters₁, inters₂, final, post, rfl, hne, rfl⟩
    refine ⟨i :: pre, inters₁, inters₂, final, post, rfl, hne, ?_⟩
    rw [text_cons, append_assoc]

theorem insideNf_append (pre items : List Item) (x : Text) :
    InsideNf (pre ++ items) (text pre ++ x) ↔ InsideNf items x := by
  induction pre with
  | nil => rfl
  | cons i pre ih => rw [cons_append, text_cons, append_assoc, insideNf_cons, ih]

theorem insideNf_first {i : Item} (items : List Item) {u v : Text} (h : i.text = u ++ v)
    (hv : v ≠ []) : InsideNf (i :: items) u ↔
      ∃ inters₁ inters₂ final, i = .nf (inters₁ ++ inters₂) final ∧ inters₁ ≠ [] ∧
        u = escChar :: inters₁ := by
  constructor
  · rintro ⟨pre, inters₁, inters₂, final, post, hitems, hne, ha⟩
    cases pre with
    | nil =>
      obtain ⟨rfl, -⟩ := cons_eq_cons.mp hitems
      exact ⟨inters₁, inters₂, final, rfl, hne, ha⟩
    | cons =>
      obtain ⟨rfl, -⟩ := cons_eq_cons.mp hitems
      have hlen := congrArg length ha
      rw [text_cons, h] at hlen
      have hpos := length_pos_iff.mpr hv
      simp at hlen
  · rintro ⟨inters₁, inters₂, final, rfl, hne, rfl⟩
    exact ⟨[], inters₁, inters₂, final, items, rfl, hne, rfl⟩

/-! ## one chunk -/

theorem visible_append (shown : Char → Bool) (a b : List Item) :
    visible shown (a ++ b) = visible shown a ++ visible shown b := flatMap_append

theorem visible_cons (shown : Char → Bool) (i : Item) (items : List Item) :
    visible shown (i :: items) = i.shown shown ++ visible shown items := rfl

theorem Unterminated.nil : Unterminated [] :=
  ⟨.plain 'a', ['a'], show 'a' ≠ escChar by decide, cons_ne_nil _ _, rfl⟩

def plains (t : Text) : List Item := t.map Item.plain

theorem text_plains (t : Text) : text (plains t) = t := by
  induction t with
  | nil => rfl
  | cons c t ih =>
    show c :: text (plains t) = c :: t
    rw [ih]

theorem visible_plains {shown : Char → Bool} {t : Text} (h : ∀ c ∈ t, shown c) :
    visible shown (plains t) = t := by
  induction t with
  | nil => rfl
  | cons c t ih =>
    rw [forall_mem_cons] at h
    show (if shown c then [c] else []) ++ visible shown (plains t) = c :: t
    rw [if_pos h.1, ih h.2]
    rfl

section
variable (S : StripAnsi)

theorem push_of_split {carry c head u : Text}
    (h : splitTrailingIncompleteEscape (carry ++ c) = (head, u)) :
    pushEscapes S.strip carry c = (u, S.strip head) := by
  unfold pushEscapes
  dsimp only
  rw [h]

theorem strip_items (h : ∀ i ∈ items, i.Valid) : S.strip (text items) = visible S.shown items := by
  have hnil := S.strip_eq items [] h .nil
  rw [append_nil] at hnil
  exact hnil

/-- what a chunk leaves of the stream when nothing shows that should not -/
structure Clean (items items' : List Item) (joined carry' rest out : Text) : Prop where
  outside : ¬ InsideNf items joined
  out_eq : out ++ visible S.shown items' = visible S.shown items
  inside_iff : ∀ x, x <+: rest → (InsideNf items (joined ++ x) ↔ InsideNf items' (carry' ++ x))

structure Leaks (items items' : List Item) (joined out : Text) : Prop where
  inside : InsideNf items joined
  longer : (visible S.shown items).length < (out ++ visible S.shown items').length

/-- **A chunk of a stream leaves a stream.** -/
theorem push_step (hvalid : ∀ i ∈ items, i.Valid) {carry c rest : Text}
    (h : carry ++ c ++ rest = text items) :
    ∃ items', (∀ i ∈ items', i.Valid) ∧
      (pushEscapes S.strip carry c).1 ++ rest = text items' ∧
      (Clean S items items' (carry ++ c) (pushEscapes S.strip carry c).1 rest
          (pushEscapes S.strip carry c).2 ∨
        Leaks S items items' (carry ++ c) (pushEscapes S.strip carry c).2) := by
  obtain ⟨pre, post, rfl, ha, hrest⟩ | ⟨pre, i, post, u, v, rfl, ha, hrest, hi, hu, hv⟩ :=
    cut_items h
  · -- between two items
    rw [forall_mem_append] at hvalid
    have hsplit := split_items hvalid.1
    rw [← ha] at hsplit
    rw [push_of_split S hsplit, ha, strip_items S hvalid.1]
    refine ⟨post, hvalid.2, hrest, .inl ⟨?_, ?_, ?_⟩⟩
    · have hiff := insideNf_append pre post []
      rw [append_nil] at hiff
      rw [hiff]
      rintro ⟨_, _, _, _, _, -, -, hnil⟩
      exact append_ne_nil_of_right_ne_nil _ (cons_ne_nil _ _) hnil.symm
    · rw [visible_append]
    · intro x _
      exact insideNf_append pre post x
  rw [forall_mem_append, forall_mem_cons] at hvalid
  obtain ⟨hpre, hitem, hpost⟩ := hvalid
  have hfirst := (insideNf_append pre (i :: post) u).trans
    (insideNf_first post hi hv)
  obtain hheld | ⟨inters₁, inters₂, final, rfl, hne, rfl, rfl⟩ | ⟨kind, body, rfl, rfl, rfl⟩ :=
    cut_item hitem hi hu hv
  · -- the beginning of a sequence is held back
    have hsplit := split_held (text pre) hheld
    rw [← ha] at hsplit
    rw [push_of_split S hsplit, ha, strip_items S hpre]
    refine ⟨i :: post, forall_mem_cons.mpr ⟨hitem, hpost⟩, ?_, .inl ⟨?_, ?_, ?_⟩⟩
    · rw [hrest, text_cons, hi, append_assoc]
    · rw [hfirst]
      rintro ⟨inters₁, inters₂, final, rfl, hne, rfl⟩
      obtain ⟨d, inters₁, rfl⟩ := exists_cons_of_ne_nil hne
      have hdone := complete_short (inter_not_kind (hitem.2.1 d mem_cons_self)) inters₁
      rw [hheld.unfinished] at hdone
      exact Bool.false_ne_true hdone
    · rw [visible_append]
    · intro x _
      rw [append_assoc]
      exact insideNf_append pre (i :: post) (u ++ x)
  · -- behind an intermediate nothing is held back, and the rest becomes text
    have hitem' := hitem
    obtain ⟨-, hinters, hfinal, -⟩ := hitem'
    rw [forall_mem_append] at hinters
    have hsplit : splitTrailingIncompleteEscape (carry ++ c) = (carry ++ c, []) := by
      apply split_settled
      obtain ⟨d, inters₁, rfl⟩ := exists_cons_of_ne_nil hne
      have hkind := inter_not_kind (hinters.1 d mem_cons_self)
      exact .inr ⟨text pre, d :: inters₁, ha, not_mem_range hinters.1 (by decide),
        complete_short hkind inters₁⟩
    have hstrip : S.strip (carry ++ c) = visible S.shown pre := by
      rw [ha]
      apply S.strip_eq pre _ hpre
      exact ⟨.nf (inters₁ ++ inters₂) final, inters₂ ++ [final], hitem, hv, hi⟩
    have hrange : ∀ d ∈ inters₂ ++ [final], inRange 0x20 0x7e d := by
      rw [forall_mem_append, forall_mem_singleton]
      exact ⟨fun d hd => widen_range (hinters.2 d hd) (by decide) (by decide),
        widen_range hfinal (by decide) (by decide)⟩
    rw [push_of_split S hsplit, hstrip]
    refine ⟨plains (inters₂ ++ [final]) ++ post, ?_, ?_, .inr ⟨?_, ?_⟩⟩
    · rw [forall_mem_append]
      refine ⟨?_, hpost⟩
      intro j hj
      obtain ⟨d, hd, rfl⟩ := mem_map.mp hj
      exact ne_esc_of_range (hrange d hd) (by decide)
    · rw [hrest, text_append, text_plains]
      rfl
    · rw [ha, hfirst]
      exact ⟨inters₁, inters₂, final, rfl, hne, rfl⟩
    · have hplains := visible_plains fun d hd => S.shown_ascii d (hrange d hd)
      rw [visible_append, visible_append, hplains, visible_cons]
      simp [Item.shown]
      omega
  · -- inside `ST` its escape is held back, and with the rest it is a sequence of its own
    have hjoined : carry ++ c = text pre ++ (escChar :: kind :: body) ++ [escChar] := by
      rw [ha, append_assoc]
    have hsplit := split_held (text pre ++ (escChar :: kind :: body)) held_esc
    rw [← hjoined] at hsplit
    have hstrip : S.strip (text pre ++ (escChar :: kind :: body)) = visible S.shown pre := by
      apply S.strip_eq pre _ hpre
      refine ⟨.str kind body false, [escChar, '\\'], hitem, cons_ne_nil _ _, ?_⟩
      rw [hi, append_assoc]
      rfl
    have htwo : (Item.two '\\').text = [escChar] ++ ['\\'] := rfl
    rw [push_of_split S hsplit, hstrip]
    refine ⟨.two '\\' :: post, ?_, ?_, .inl ⟨?_, ?_, ?_⟩⟩
    · rw [forall_mem_cons]
      exact ⟨⟨by decide, by decide⟩, hpost⟩
    · rw [hrest]
      rfl
    · rw [ha, hfirst]
      rintro ⟨_, _, _, hnf, -⟩
      cases hnf
    · rw [visible_append]
      rfl
    · intro x hx
      cases x with
      | nil =>
        rw [append_nil, append_nil, ha, hfirst, insideNf_first post htwo hv]
        constructor
        · rintro ⟨_, _, _, hnf, -⟩
          cases hnf
        · rintro ⟨_, _, _, hnf, -⟩
          cases hnf
      | cons d y =>
        rw [hrest] at hx
        obtain ⟨rfl, -⟩ := cons_prefix_cons.mp hx
        have hleft : carry ++ c ++ '\\' :: y =
            text pre ++ ((Item.str kind body false).text ++ y) := by
          rw [ha, hi]
          simp
        have hright : [escChar] ++ '\\' :: y = (Item.two '\\').text ++ y := rfl
        rw [hleft, hright, insideNf_append, insideNf_cons, insideNf_cons]

theorem text_eq_nil (h : text items = []) : items = [] := by
  cases items with
  | nil => rfl
  | cons i =>
    rw [text_cons] at h
    exact absurd (append_eq_nil_iff.mp h).1 i.text_ne_nil

theorem items_of_carry (hvalid : ∀ i ∈ items, i.Valid) {carry : Text}
    (hcarry : splitTrailingIncompleteEscape carry = ([], carry)) (h : carry = text items) :
    items = [] := by
  have hsplit := split_items hvalid
  rw [← h, hcarry] at hsplit
  exact text_eq_nil (h.symm.trans (congrArg Prod.snd hsplit))

theorem carry_again (carry c : Text) :
    splitTrailingIncompleteEscape (pushEscapes S.strip carry c).1 =
      ([], (pushEscapes S.strip carry c).1) := split_carry (carry ++ c)

theorem feed_length (hvalid : ∀ i ∈ items, i.Valid) {carry : Text}
    (hcarry : splitTrailingIncompleteEscape carry = ([], carry)) {chunks : List Text}
    (h : carry ++ chunks.flatten = text items) :
    (visible S.shown items).length ≤
      (Transducer.feed (pushEscapes S.strip) carry chunks).2.length := by
  induction chunks generalizing carry items with
  | nil =>
    rw [flatten_nil, append_nil] at h
    rw [items_of_carry hvalid hcarry h]
    exact Nat.zero_le _
  | cons c chunks ih =>
    rw [flatten_cons, ← append_assoc] at h
    obtain ⟨items', hvalid', htext, hstep⟩ := push_step S hvalid h
    have hrest := ih hvalid' (carry_again S carry c) htext
    rw [Transducer.feed_cons, length_append]
    obtain hclean | hleaks := hstep
    · rw [← hclean.out_eq, length_append]
      omega
    · have hlonger := hleaks.longer
      rw [length_append] at hlonger
      omega

theorem feed_iff (hvalid : ∀ i ∈ items, i.Valid) {carry : Text}
    (hcarry : splitTrailingIncompleteEscape carry = ([], carry)) (hout : ¬ InsideNf items carry)
    {chunks : List Text} (h : carry ++ chunks.flatten = text items) :
    (Transducer.feed (pushEscapes S.strip) carry chunks).2 = visible S.shown items ↔
      ∀ front, front <+: chunks → ¬ InsideNf items (carry ++ front.flatten) := by
  induction chunks generalizing carry items with
  | nil =>
    rw [flatten_nil, append_nil] at h
    rw [items_of_carry hvalid hcarry h]
    constructor
    · rintro - front hfront ⟨pre, inters₁, inters₂, final, post, hnil, -⟩
      exact append_ne_nil_of_right_ne_nil _ (cons_ne_nil _ _) hnil.symm
    · intro _
      rfl
  | cons c chunks ih =>
    rw [flatten_cons, ← append_assoc] at h
    obtain ⟨items', hvalid', htext, hstep⟩ := push_step S hvalid h
    rw [Transducer.feed_cons]
    obtain hclean | hleaks := hstep
    · have hnil := hclean.inside_iff [] nil_prefix
      rw [append_nil, append_nil] at hnil
      have hrest := ih hvalid' (carry_again S carry c) (fun hin => hclean.outside (hnil.mpr hin)) htext
      rw [← hclean.out_eq, append_cancel_left_eq, hrest]
      have hshift : ∀ front, front <+: chunks →
          (InsideNf items (carry ++ (c :: front).flatten) ↔
            InsideNf items' ((pushEscapes S.strip carry c).1 ++ front.flatten)) := by
        rintro front ⟨back, rfl⟩
        rw [flatten_cons, ← append_assoc]
        apply hclean.inside_iff
        rw [flatten_append]
        exact prefix_append _ _
      constructor
      · intro hall front hfront
        cases front with
        | nil =>
          rw [flatten_nil, append_nil]
          exact hout
        | cons d front =>
          obtain ⟨rfl, htail⟩ := cons_prefix_cons.mp hfront
          rw [hshift front htail]
          exact hall front htail
      · intro hall front hfront
        rw [← hshift front hfront]
        exact hall (c :: front) (cons_prefix_cons.mpr ⟨rfl, hfront⟩)
    constructor
    · intro heq
      have hlength := feed_length S hvalid' (carry_again S carry c) htext
      have hlonger := hleaks.longer
      rw [← heq, length_append, length_append] at hlonger
      omega
    · intro hall
      have hinside := hall [c] (cons_prefix_cons.mpr ⟨rfl, nil_prefix⟩)
      rw [flatten_singleton] at hinside
      exact absurd hleaks.inside hinside

/-- **The chunks give the plain text of the stream iff no cut is inside an `nF` sequence.** -/
theorem plainText_iff (s : Stream) (c : Chunks s) : plainText S.strip c.pieces = S.strip s.text ↔
    ∀ front, front <+: c.pieces → ¬ InsideNf s.items front.flatten := by
  have hout : ¬ InsideNf s.items [] := by
    rintro ⟨_, _, _, _, _, -, -, hnil⟩
    exact append_ne_nil_of_right_ne_nil _ (cons_ne_nil _ _) hnil.symm
  have hstrip : S.strip s.text = visible S.shown s.items := strip_items S s.valid
  rw [hstrip]
  exact feed_iff S s.valid rfl hout c.flatten_eq

end

/-! ## a function as assumed -/

inductive Mode where
  | ground
  | esc
  | nf
  | csi
  | str
  | strEsc
deriving DecidableEq

def isPrintable (c : Char) : Bool := c = '\n' || 0x20 ≤ c.toNat

def scanChar (m : Mode) (c : Char) : Mode × Text :=
  match m with
  | .ground => if c = escChar then (.esc, []) else (.ground, if isPrintable c then [c] else [])
  | .esc =>
    if inRange 0x20 0x2f c then (.nf, [])
    else if c = '[' then (.csi, [])
    else if c ∈ stringKinds then (.str, [])
    else (.ground, [])
  | .nf => if inRange 0x20 0x2f c then (.nf, []) else (.ground, [])
  | .csi => if isFinal c then (.ground, []) else (.csi, [])
  | .str => if c = belChar then (.ground, []) else if c = escChar then (.strEsc, []) else (.str, [])
  | .strEsc => (.ground, [])

def scan (m : Mode) (t : Text) : Mode × Text := Transducer.feed scanChar m t

theorem scan_append (m : Mode) (a b : Text) :
    scan m (a ++ b) = ((scan (scan m a).1 b).1, (scan m a).2 ++ (scan (scan m a).1 b).2) :=
  Transducer.feed_append scanChar m a b

theorem scan_stays {m : Mode} {t : Text} (h : ∀ c ∈ t, scanChar m c = (m, [])) :
    scan m t = (m, []) := by
  induction t with
  | nil => rfl
  | cons c t ih =>
    rw [forall_mem_cons] at h
    have hcons : scan m (c :: t) =
      ((scan (scanChar m c).1 t).1, (scanChar m c).2 ++ (scan (scanChar m c).1 t).2) := rfl
    rw [hcons, h.1, ih h.2]
    rfl

theorem scan_sequence (m : Mode) (front : Text) (hfront : scan .ground front = (m, []))
    {middle : Text} (hmiddle : ∀ c ∈ middle, scanChar m c = (m, [])) {final : Char}
    (hfinal : scanChar m final = (.ground, [])) :
    scan .ground (front ++ middle ++ [final]) = (.ground, []) := by
  rw [scan_append, scan_append, hfront, scan_stays hmiddle]
  show ((scanChar m final).1, ([] ++ []) ++ ((scanChar m final).2 ++ [])) = _
  rw [hfinal]
  rfl

theorem scan_item {i : Item} (hv : i.Valid) :
    scan .ground i.text = (.ground, i.shown isPrintable) := by
  cases i with
  | plain c =>
    have hstep : scanChar .ground c = (.ground, if isPrintable c then [c] else []) := if_neg hv
    show ((scanChar .ground c).1, (scanChar .ground c).2 ++ []) = _
    rw [hstep, append_nil]
    rfl
  | csi =>
    obtain ⟨hparams, hinters, hfinal, -⟩ := hv
    refine scan_sequence .csi [escChar, '['] rfl ?_ (if_pos hfinal)
    intro c hc
    apply if_neg
    intro hc'
    have hge : 0x40 ≤ c.toNat := of_decide_eq_true (Bool.and_eq_true_iff.mp hc').1
    have hlt : c.toNat ≤ 0x3f := by
      obtain hc | hc := mem_append.mp hc
      · exact of_decide_eq_true (Bool.and_eq_true_iff.mp (hparams c hc)).2
      · exact (of_decide_eq_true (Bool.and_eq_true_iff.mp (hinters c hc)).2).trans (by decide)
    omega
  | nf inters final =>
    obtain ⟨hne, hinters, hfinal, -⟩ := hv
    obtain ⟨d, inters, rfl⟩ := exists_cons_of_ne_nil hne
    rw [forall_mem_cons] at hinters
    have hfront : scan .ground [escChar, d] = (.nf, []) := by
      have hstep : scanChar .esc d = (.nf, []) := if_pos hinters.1
      show ((scanChar .esc d).1, [] ++ ((scanChar .esc d).2 ++ [])) = _
      rw [hstep]
      rfl
    refine scan_sequence .nf [escChar, d] hfront (fun c hc => if_pos (hinters.2 c hc)) ?_
    apply if_neg
    intro hinter
    have hge : 0x30 ≤ final.toNat := of_decide_eq_true (Bool.and_eq_true_iff.mp hfinal).1
    have hle : final.toNat ≤ 0x2f := of_decide_eq_true (Bool.and_eq_true_iff.mp hinter).2
    omega
  | two final =>
    obtain ⟨hfinal, hkind⟩ := hv
    rw [mem_cons, not_or] at hkind
    refine scan_sequence .esc [escChar] rfl (forall_mem_nil _) ?_
    have hinter : ¬ inRange 0x20 0x2f final := by
      intro hinter
      have hge : 0x30 ≤ final.toNat := of_decide_eq_true (Bool.and_eq_true_iff.mp hfinal).1
      have hle : final.toNat ≤ 0x2f := of_decide_eq_true (Bool.and_eq_true_iff.mp hinter).2
      omega
    exact (if_neg hinter).trans ((if_neg hkind.1).trans (if_neg hkind.2))
  | str kind body bellEnded =>
    obtain ⟨hkind, hbody, -⟩ := hv
    have hfront : scan .ground [escChar, kind] = (.str, []) := by
      obtain rfl | hkind := mem_cons.mp hkind
      · rfl
      · obtain rfl := mem_singleton.mp hkind
        rfl
    have hstays : ∀ c ∈ body, scanChar .str c = (.str, []) := by
      intro c hc
      obtain ⟨hesc, hbel⟩ := stringChar_ne (hbody c hc)
      exact (if_neg hbel).trans (if_neg hesc)
    cases bellEnded with
    | true => exact scan_sequence .str _ hfront hstays rfl
    | false =>
      have hopen : scan .ground ([escChar, kind] ++ body) = (.str, []) := by
        rw [scan_append, hfront, scan_stays hstays]
        rfl
      show scan .ground (([escChar, kind] ++ body) ++ [escChar] ++ ['\\']) = _
      rw [append_assoc, scan_append, hopen]
      rfl

theorem scan_items (hv : ∀ i ∈ items, i.Valid) :
    scan .ground (text items) = (.ground, visible isPrintable items) := by
  induction items with
  | nil => rfl
  | cons i items ih =>
    rw [forall_mem_cons] at hv
    rw [text_cons, scan_append, scan_item hv.1, ih hv.2]
    rfl

theorem scan_unterminated {tail : Text} (h : Unterminated tail) : (scan .ground tail).2 = [] := by
  obtain ⟨i, v, hvalid, hv, hi⟩ := h
  have hread := congrArg Prod.snd (scan_item hvalid)
  rw [hi, scan_append] at hread
  cases i with
  | plain =>
    cases tail with
    | nil => rfl
    | cons =>
      obtain ⟨-, hnil⟩ := cons_eq_cons.mp hi
      exact absurd (append_eq_nil_iff.mp hnil.symm).2 hv
  | csi | nf | two | str =>
    exact (append_eq_nil_iff.mp hread).1

def scanStrip : StripAnsi where
  strip t := (scan .ground t).2
  shown := isPrintable
  shown_ascii c hc := by
    have hge : 0x20 ≤ c.toNat := of_decide_eq_true (Bool.and_eq_true_iff.mp hc).1
    exact Bool.or_eq_true_iff.mpr (.inr (decide_eq_true hge))
  strip_eq items tail hvalid htail := by
    rw [scan_append, scan_items hvalid, scan_unterminated htail, List.append_nil]

def charset : Stream where
  items := [.nf ['('] 'B']
  valid := by
    rw [List.forall_mem_singleton]
    exact ⟨List.cons_ne_nil _ _, List.forall_mem_singleton.mpr (by decide), by decide, by decide⟩

/-- cut behind `ESC (`, it leaves its `B` -/
theorem charset_leaks : ¬ ∀ (S : StripAnsi) (s : Stream) (c : Chunks s),
    plainText S.strip c.pieces = S.strip s.text := by
  intro h
  exact absurd (h scanStrip charset ⟨[[escChar, '('], ['B']], rfl⟩) (by decide)

end CcPanes.EscapeCarry

import CcPanes.View.RenderEffects
import CcPanes.View.SharedRenderer

/-!
# Where a replay is cut

The background filter of a checkpoint photo keeps nothing between two slices, so a slice that ends
inside a control sequence would be filtered wrongly.  `chunkEnd` moves its boundary for that.
-/

namespace CcPanes.SharedRenderer
open List Bool

variable {limit : Nat} {data : JsString} {c : UInt16} {x y : JsString}

/-! ## control sequences -/

def isParameter (c : UInt16) : Bool := 0x30 ≤ c && c ≤ 0x3f

def isIntermediate (c : UInt16) : Bool := 0x20 ≤ c && c ≤ 0x2f

structure ControlSequence where
  params : JsString
  intermediates : JsString
  final : UInt16
  isParams : params.all isParameter
  isIntermediates : intermediates.all isIntermediate
  isFinal : isFinal final

def ControlSequence.body (s : ControlSequence) : JsString := s.params ++ s.intermediates

def ControlSequence.text (s : ControlSequence) : JsString :=
  esc :: bracket :: (s.body ++ [s.final])

/-- every `ESC [` starts a control sequence -/
def WellFormed (data : JsString) : Prop :=
  ∀ x y, data = x ++ esc :: bracket :: y → ∃ (s : ControlSequence) (z : JsString),
    data = x ++ s.text ++ z

def InsideSequence (data : JsString) (boundary : Nat) : Prop :=
  ∃ (x : JsString) (s : ControlSequence) (y : JsString), data = x ++ s.text ++ y ∧
    x.length < boundary ∧ boundary < x.length + s.text.length

def isHighSurrogate (c : UInt16) : Bool := 0xd800 ≤ c && c ≤ 0xdbff

def isLowSurrogate (c : UInt16) : Bool := 0xdc00 ≤ c && c ≤ 0xdfff

def InsidePair (data : JsString) (boundary : Nat) : Prop :=
  ∃ (x : JsString) (high low : UInt16) (y : JsString), data = x ++ high :: low :: y ∧
    boundary = x.length + 1 ∧ isHighSurrogate high ∧ isLowSurrogate low

def Clean (data : JsString) (boundary : Nat) : Prop :=
  ¬ InsideSequence data boundary ∧ ¬ InsidePair data boundary

theorem not_final_of_le (h : c ≤ 0x3f) : isFinal c = false := by
  have hle : c.toNat ≤ 0x3f := h
  refine eq_false_iff.mpr fun hfinal => ?_
  simp only [isFinal, and_eq_true, decide_eq_true_eq] at hfinal
  have hge : 0x40 ≤ c.toNat := hfinal.1
  omega

theorem parameter_le (h : isParameter c = true) : 0x30 ≤ c ∧ c ≤ 0x3f := by
  simpa only [isParameter, and_eq_true, decide_eq_true_eq] using h

theorem intermediate_le (h : isIntermediate c = true) : 0x20 ≤ c ∧ c ≤ 0x3f := by
  simp only [isIntermediate, and_eq_true, decide_eq_true_eq] at h
  exact ⟨h.1, Nat.le_trans h.2 (by decide)⟩

namespace ControlSequence
variable (s : ControlSequence)

theorem body_plain {c : UInt16} (h : c ∈ s.body) : 0x20 ≤ c ∧ c ≤ 0x3f := by
  rcases mem_append.mp h with h | h
  · have hc := parameter_le (all_eq_true.mp s.isParams c h)
    exact ⟨Nat.le_trans (by decide) hc.1, hc.2⟩
  · exact intermediate_le (all_eq_true.mp s.isIntermediates c h)

theorem body_not_final {c : UInt16} (h : c ∈ s.body) : CcPanes.isFinal c = false :=
  not_final_of_le (s.body_plain h).2

theorem final_bounds : 0x40 ≤ s.final.toNat ∧ s.final.toNat ≤ 0x7e := by
  have h := s.isFinal
  simp only [CcPanes.isFinal, and_eq_true, decide_eq_true_eq] at h
  exact h

theorem not_esc_of_mem_tail {c : UInt16} (h : c ∈ bracket :: (s.body ++ [s.final])) : c ≠ esc := by
  rintro rfl
  rcases mem_cons.mp h with h | h
  · exact absurd h (by decide)
  rcases mem_append.mp h with h | h
  · exact absurd (s.body_plain h).1 (by decide)
  · have hfinal := s.final_bounds.1
    rw [← mem_singleton.mp h] at hfinal
    exact absurd hfinal (by decide)

theorem takeWhile_body (z : JsString) :
    (s.body ++ s.final :: z).takeWhile (!CcPanes.isFinal ·) = s.body := by
  have hbody : ∀ c ∈ s.body, (!CcPanes.isFinal c) = true := fun c hc => by
    rw [s.body_not_final hc]
    rfl
  rw [takeWhile_append_of_pos hbody, takeWhile_cons_of_neg (by simp [s.isFinal]),
    append_nil]

theorem length_text : s.text.length = s.body.length + 3 := by
  simp [text]

theorem unfinished_of_prefix {t z : JsString} (h : s.text = t ++ z) (ht : t ≠ []) (hz : z ≠ []) :
    isUnfinishedCsi t = true := by
  match t, ht, h with
  | [c], _, h =>
    obtain rfl : esc = c := (cons.inj h).1
    rfl
  | c :: d :: t, _, h =>
    obtain ⟨rfl, htail⟩ := cons.inj h
    obtain ⟨rfl, hrest⟩ := cons.inj htail
    obtain ⟨z', u, rfl⟩ := eq_nil_or_concat z |>.resolve_left hz
    have hbody : s.params ++ s.intermediates = t ++ z' := by
      have happ : s.params ++ s.intermediates ++ [s.final] = t ++ z' ++ [u] := by
        rw [append_assoc t, ← @concat_eq_append _ z']
        exact hrest
      exact (append_inj' happ rfl).1
    have hdrop : (t.dropWhile isParameter).all isIntermediate = true := by
      rcases append_eq_append_iff.mp hbody with ⟨r, rfl, hr⟩ | ⟨r, hr, _⟩
      · have hparams : ∀ c ∈ s.params, isParameter c = true := all_eq_true.mp s.isParams
        rw [dropWhile_append_of_pos hparams]
        refine all_eq_true.mpr fun c hc => ?_
        have hmem : c ∈ s.intermediates := by
          rw [hr]
          exact mem_append_left _ ((dropWhile_sublist _).subset hc)
        exact all_eq_true.mp s.isIntermediates c hmem
      · have hparams : ∀ c ∈ t, isParameter c = true := fun c hc =>
          all_eq_true.mp s.isParams c (hr ▸ mem_append_left _ hc)
        rw [dropWhile_eq_nil_iff.mpr hparams]
        rfl
    exact hdrop

end ControlSequence

def startsWell : JsString → Bool
  | c :: d :: y =>
    c != esc || d != bracket ||
      ((y.dropWhile isParameter).dropWhile isIntermediate).head?.any isFinal
  | _ => true

theorem startsWell_sequence (s : ControlSequence) (z : JsString) :
    startsWell (s.text ++ z) = true := by
  have hfinal := s.final_bounds.1
  have hparam : isParameter s.final = false :=
    eq_false_iff.mpr fun h => absurd (show s.final.toNat ≤ 0x3f from (parameter_le h).2) (by omega)
  have hinter : isIntermediate s.final = false :=
    eq_false_iff.mpr fun h =>
      absurd (show s.final.toNat ≤ 0x3f from (intermediate_le h).2) (by omega)
  have htext : s.text ++ z = esc :: bracket :: (s.params ++ (s.intermediates ++ s.final :: z)) := by
    simp [ControlSequence.text, ControlSequence.body]
  have hdrop : (s.params ++ (s.intermediates ++ s.final :: z)).dropWhile isParameter =
      s.intermediates ++ s.final :: z := by
    rw [dropWhile_append_of_pos (all_eq_true.mp s.isParams)]
    cases hi : s.intermediates with
    | nil => rw [nil_append, dropWhile_cons_of_neg (by rw [hparam]; simp)]
    | cons c =>
      have hc := all_eq_true.mp s.isIntermediates c (by rw [hi]; exact mem_cons_self)
      simp only [isIntermediate, and_eq_true, decide_eq_true_eq] at hc
      have hle : c.toNat ≤ 0x2f := hc.2
      have hc' : ¬ isParameter c = true := fun h =>
        absurd (show 0x30 ≤ c.toNat from (parameter_le h).1) (by omega)
      rw [cons_append, dropWhile_cons_of_neg hc']
  rw [htext]
  unfold startsWell
  rw [or_eq_true]
  right
  rw [hdrop, dropWhile_append_of_pos (all_eq_true.mp s.isIntermediates),
    dropWhile_cons_of_neg (by rw [hinter]; simp)]
  exact s.isFinal

theorem exists_sequence {y : JsString} (h : startsWell (esc :: bracket :: y) = true) :
    ∃ (s : ControlSequence) (z : JsString), esc :: bracket :: y = s.text ++ z := by
  have h : ((y.dropWhile isParameter).dropWhile isIntermediate).head?.any isFinal = true := h
  have hparams : (y.takeWhile isParameter).all isParameter = true :=
    all_eq_true.mpr fun c hc => mem_takeWhile_imp hc
  generalize hrest : y.dropWhile isParameter = rest at h
  have hinter : (rest.takeWhile isIntermediate).all isIntermediate = true :=
    all_eq_true.mpr fun c hc => mem_takeWhile_imp hc
  cases hz : rest.dropWhile isIntermediate with
  | nil =>
    rw [hz] at h
    cases h
  | cons c z =>
    rw [hz] at h
    refine ⟨⟨_, _, c, hparams, hinter, h⟩, z, ?_⟩
    have hy : y = y.takeWhile isParameter ++ (rest.takeWhile isIntermediate ++ c :: z) := by
      rw [← hz, takeWhile_append_dropWhile, ← hrest, takeWhile_append_dropWhile]
    conv_lhs => rw [hy]
    simp [ControlSequence.text, ControlSequence.body]

theorem wellFormed_iff :
    WellFormed data ↔ ∀ t ∈ data.tails, startsWell t = true := by
  constructor
  · intro h t ht
    obtain ⟨x, rfl⟩ := (mem_tails _ _).mp ht
    match t with
    | [] => rfl
    | [c] => rfl
    | c :: d :: y =>
      by_cases hcd : c = esc ∧ d = bracket
      · obtain ⟨rfl, rfl⟩ := hcd
        obtain ⟨s, z, hs⟩ := h x y rfl
        rw [append_assoc] at hs
        rw [append_cancel_left hs]
        exact startsWell_sequence s z
      · simp only [startsWell, or_eq_true, bne_iff_ne]
        exact .inl (not_and_or.mp hcd)
  · rintro h x y rfl
    have ht := h (esc :: bracket :: y) ((mem_tails _ _).mpr ⟨x, rfl⟩)
    obtain ⟨s, z, hs⟩ := exists_sequence ht
    exact ⟨s, z, by rw [hs, append_assoc]⟩

instance (data : JsString) : Decidable (WellFormed data) :=
  decidable_of_iff' _ wellFormed_iff

/-! ## boundaries -/

theorem WellFormed.of_append (h : WellFormed (x ++ y)) : WellFormed y := by
  intro u v huv
  obtain ⟨s, z, hz⟩ := h (x ++ u) v (by rw [huv, append_assoc])
  refine ⟨s, z, ?_⟩
  rw [append_assoc, append_assoc] at hz
  rw [append_assoc]
  exact append_cancel_left hz

theorem getElem?_sequence (s : ControlSequence) :
    (x ++ s.text ++ y)[x.length]? = some esc ∧
      ∀ i, x.length < i → i < x.length + s.text.length → (x ++ s.text ++ y)[i]? ≠ some esc := by
  rw [append_assoc]
  refine ⟨?_, fun i hi hlt hesc => ?_⟩
  · rw [getElem?_append_right (Nat.le_refl _), Nat.sub_self]
    rfl
  have htail : s.text ++ y = esc :: ((bracket :: (s.body ++ [s.final])) ++ y) := rfl
  obtain ⟨j, rfl⟩ : ∃ j, i = x.length + (j + 1) := ⟨i - x.length - 1, by omega⟩
  have hj : j < (bracket :: (s.body ++ [s.final])).length := by
    have hlen : s.text.length = (bracket :: (s.body ++ [s.final])).length + 1 := rfl
    omega
  rw [getElem?_append_right (Nat.le_add_right _ _), Nat.add_sub_cancel_left, htail,
    getElem?_cons_succ, getElem?_append_left hj] at hesc
  exact s.not_esc_of_mem_tail (mem_of_getElem? hesc) rfl

theorem clean_at_esc {n : Nat} (h : data[n]? = some esc) : Clean data n := by
  constructor
  · rintro ⟨x, s, y, rfl, hlt, hend⟩
    exact (getElem?_sequence s).2 n hlt hend h
  rintro ⟨x, high, low, y, rfl, rfl, -, hlow⟩
  rw [getElem?_append_right (Nat.le_add_right _ _), Nat.add_sub_cancel_left] at h
  cases h
  cases hlow

theorem clean_behind (s : ControlSequence) (y : JsString) : Clean (s.text ++ y) s.text.length := by
  constructor
  · rintro ⟨x, s', y', heq, hlt, hend⟩
    by_cases hx : x = []
    · subst hx
      have hbody : s.body = s'.body := by
        have h2 : s.body ++ s.final :: y = s'.body ++ s'.final :: y' := by
          have := congrArg (drop 2) heq
          simpa [ControlSequence.text] using this
        rw [← s.takeWhile_body y, h2, s'.takeWhile_body]
      rw [s.length_text, s'.length_text, hbody] at hend
      simp at hend
    · have hesc := (getElem?_sequence (x := x) (y := y') s').1
      rw [← heq] at hesc
      exact (getElem?_sequence (x := []) (y := y) s).2 x.length
        (length_pos_iff.mpr hx) (by simpa using hlt) hesc
  rintro ⟨x, high, low, y', heq, hlen, hhigh, -⟩
  have hlast : (s.text ++ y)[x.length]? = some s.final := by
    have hx : x.length = (esc :: bracket :: s.body).length := by
      have := s.length_text
      simp only [length_cons]
      omega
    have hsplit : s.text ++ y = (esc :: bracket :: s.body) ++ (s.final :: y) := by
      simp [ControlSequence.text]
    rw [hsplit, hx, getElem?_append_right (Nat.le_refl _), Nat.sub_self]
    rfl
  rw [heq, getElem?_append_right (Nat.le_refl _), Nat.sub_self] at hlast
  cases hlast
  have hle := s.final_bounds.2
  simp only [isHighSurrogate, and_eq_true, decide_eq_true_eq] at hhigh
  have hge : 0xd800 ≤ s.final.toNat := hhigh.1
  omega

theorem clean_of_ge {n : Nat} (h : data.length ≤ n) : Clean data n := by
  constructor
  · rintro ⟨x, s, y, rfl, -, hend⟩
    simp only [length_append] at h
    omega
  · rintro ⟨x, high, low, y, rfl, rfl, -⟩
    simp only [length_append, length_cons] at h
    omega

theorem split_behind {x y u v : JsString} (h : x ++ y = u ++ v) (hle : x.length ≤ u.length) :
    ∃ w, u = x ++ w ∧ y = w ++ v := by
  have hprefix : x <+: u := prefix_of_prefix_length_le ⟨y, h⟩ ⟨v, rfl⟩ hle
  obtain ⟨w, rfl⟩ := hprefix
  rw [append_assoc] at h
  exact ⟨w, rfl, append_cancel_left h⟩

theorem Clean.add {n : Nat} (hx : Clean (x ++ y) x.length) (hy : Clean y n) (hn : 0 < n) :
    Clean (x ++ y) (x.length + n) := by
  constructor
  · rintro ⟨u, s, v, heq, hlt, hend⟩
    by_cases hu : u.length < x.length
    · exact hx.1 ⟨u, s, v, heq, hu, by omega⟩
    rw [append_assoc] at heq
    obtain ⟨w, rfl, hw⟩ := split_behind heq (by omega)
    rw [length_append] at hlt hend
    exact hy.1 ⟨w, s, v, by rw [hw, append_assoc], by omega, by omega⟩
  · rintro ⟨u, high, low, v, heq, hlen, hpair⟩
    obtain ⟨w, rfl, hw⟩ := split_behind heq (by omega)
    rw [length_append] at hlen
    exact hy.2 ⟨w, high, low, v, hw, by omega, hpair⟩

/-! ## the end of a chunk -/

theorem lastIndexOf_none {t : JsString} (h : lastIndexOf c t = none) : c ∉ t := by
  unfold lastIndexOf at h
  split at h
  · cases h
  · assumption

theorem lastIndexOf_some {t : JsString} {n : Nat} (h : lastIndexOf c t = some n) :
    ∃ u v, t = u ++ c :: v ∧ u.length = n ∧ c ∉ v := by
  unfold lastIndexOf at h
  split at h
  · next hmem =>
    cases h
    obtain ⟨v, u, hrev, hv⟩ := eq_append_cons_of_mem (mem_reverse.mpr hmem)
    have ht : t = u.reverse ++ c :: v.reverse := by
      rw [← reverse_reverse t, hrev]
      simp
    refine ⟨u.reverse, v.reverse, ht, ?_, by simpa using hv⟩
    have hindex : t.reverse.idxOf c = v.length := by
      rw [hrev, idxOf_append_of_notMem hv, idxOf_cons_self, Nat.add_zero]
    have hlen := congrArg length ht
    simp only [length_append, length_reverse, length_cons] at hlen
    rw [hindex, length_reverse]
    omega
  · cases h

theorem getD_shift (x text : JsString) (i : Nat) (d : UInt16) :
    (x ++ text).getD (x.length + i) d = text.getD i d := by
  rw [getD_eq_getElem?_getD, getElem?_append_right (Nat.le_add_right _ _),
    Nat.add_sub_cancel_left, getD_eq_getElem?_getD]

theorem slice_shift (x text : JsString) (a b : Nat) :
    slice (x ++ text) (x.length + a) (x.length + b) = slice text a b := by
  unfold slice
  rw [drop_append, Nat.add_sub_add_left, Nat.add_sub_cancel_left,
    drop_eq_nil_of_le (Nat.le_add_right _ _), nil_append]

theorem endOfSequence_shift (x text : JsString) (stop : Nat) :
    endOfSequence (x ++ text) (x.length + stop) = x.length + endOfSequence text stop := by
  unfold endOfSequence
  rw [drop_append, Nat.add_sub_cancel_left, drop_eq_nil_of_le (Nat.le_add_right _ _),
    nil_append, length_append]
  dsimp only
  split <;> split <;> omega

theorem chunkEnd_shift (x text : JsString) (hlimit : 1 ≤ limit) :
    chunkEnd (x ++ text) x.length limit = x.length + chunkEnd text 0 limit := by
  have hlast : (x ++ text).getD (x.length + limit - 1) 0 = text.getD (0 + limit - 1) 0 := by
    rw [Nat.add_sub_assoc hlimit, getD_shift, Nat.zero_add]
  have hstop : ∀ p : Prop, ∀ _ : Decidable p,
      (if p then x.length + limit - 1 else x.length + limit) =
        x.length + (if p then 0 + limit - 1 else 0 + limit) := by
    intro p _
    split <;> omega
  unfold chunkEnd
  rw [hlast, length_append]
  dsimp only
  rw [hstop]
  generalize (if 0xd800 ≤ text.getD (0 + limit - 1) 0 ∧ text.getD (0 + limit - 1) 0 ≤ 0xdbff then
    0 + limit - 1 else 0 + limit) = stop
  by_cases hend : min (0 + limit) text.length = text.length
  · rw [if_pos hend, if_pos (by omega)]
  rw [if_neg hend, if_neg (by omega)]
  have hslice : slice (x ++ text) x.length (x.length + stop) = slice text 0 stop :=
    slice_shift x text 0 stop
  rw [hslice]
  cases lastIndexOf esc (slice text 0 stop) with
  | none => rfl
  | some =>
    dsimp only
    rw [slice_shift, endOfSequence_shift, Nat.zero_add]
    split_ifs <;> rfl

theorem exists_stop {text : JsString} (hlimit : 256 ≤ limit) (hend : limit < text.length) :
    ∃ stop, (if 0xd800 ≤ text.getD (0 + limit - 1) 0 ∧ text.getD (0 + limit - 1) 0 ≤ 0xdbff then
        0 + limit - 1 else 0 + limit) = stop ∧
      255 ≤ stop ∧ stop < text.length ∧ ¬ InsidePair text stop := by
  refine ⟨_, rfl, by split <;> omega, by split <;> omega, ?_⟩
  rintro ⟨x, high, low, y, heq, hlen, hhigh, hlow⟩
  simp only [isHighSurrogate, isLowSurrogate, and_eq_true, decide_eq_true_eq] at hhigh hlow
  have hget : ∀ i, text.getD (x.length + i) 0 = (high :: low :: y).getD i 0 := by
    intro i
    rw [heq, getD_shift]
  split at hlen
  · next hsurrogate =>
    -- the last unit is the one behind the boundary
    have hlast : text.getD (0 + limit - 1) 0 = low := by
      rw [hlen]
      exact hget 1
    rw [hlast] at hsurrogate
    have hle : low.toNat ≤ 0xdbff := hsurrogate.2
    have hge : 0xdc00 ≤ low.toNat := hlow.1
    omega
  · next hsurrogate =>
    have hlast : text.getD (0 + limit - 1) 0 = high := by
      rw [hlen]
      exact hget 0
    rw [hlast] at hsurrogate
    exact hsurrogate hhigh

theorem unfinished_cons {d : UInt16} {v : JsString} (h : isUnfinishedCsi (esc :: d :: v) = true) :
    d = bracket ∧ ∀ c ∈ v, isFinal c = false := by
  have h : (esc == esc && d == bracket && (v.dropWhile isParameter).all isIntermediate) = true := h
  simp only [and_eq_true, beq_iff_eq, all_eq_true] at h
  obtain ⟨⟨-, hd⟩, hrest⟩ := h
  refine ⟨hd, fun c hc => ?_⟩
  rw [← takeWhile_append_dropWhile (p := isParameter) (l := v)] at hc
  rcases mem_append.mp hc with hc | hc
  · exact not_final_of_le (parameter_le (mem_takeWhile_imp hc)).2
  · exact not_final_of_le (intermediate_le (hrest c hc)).2

theorem endOfSequence_eq {text z v : JsString} {s : ControlSequence} {stop : Nat}
    (hs : text = s.text ++ z) (hv : text.take stop = esc :: bracket :: v)
    (hlen : (text.take stop).length = stop) (hplain : ∀ c ∈ v, isFinal c = false) :
    endOfSequence text stop = s.text.length := by
  have htext : text.length = s.text.length + z.length := by rw [hs, length_append]
  have hrest : v ++ text.drop stop = s.body ++ s.final :: z := by
    have heq : (esc :: bracket :: v) ++ text.drop stop = s.text ++ z := by
      rw [← hv, take_append_drop, hs]
    simpa [ControlSequence.text] using heq
  have hbody : v ++ (text.drop stop).takeWhile (!isFinal ·) = s.body := by
    rw [← s.takeWhile_body z, ← hrest, takeWhile_append_of_pos]
    intro c hc
    rw [hplain c hc]
    rfl
  have hbody := congrArg length hbody
  rw [length_append] at hbody
  rw [hv, length_cons, length_cons] at hlen
  have hslen := s.length_text
  unfold endOfSequence
  dsimp only
  rw [if_pos (by omega)]
  omega

/-- **The end of a chunk is clean** -/
theorem chunkEnd_clean {text : JsString} (hwf : WellFormed text) (hlimit : 256 ≤ limit) :
    Clean text (chunkEnd text 0 limit) := by
  unfold chunkEnd
  split
  · exact clean_of_ge (Nat.le_refl _)
  next hend =>
  obtain ⟨stop, hstop, hge, hlt, hpair⟩ := exists_stop hlimit (show limit < text.length by omega)
  dsimp only
  rw [hstop]
  have hhead : slice text 0 stop = text.take stop := rfl
  have hsplit : text = text.take stop ++ text.drop stop := (take_append_drop stop text).symm
  have hlen : (text.take stop).length = stop := length_take_of_le (Nat.le_of_lt hlt)
  rw [hhead]
  split
  · next hnone =>
    refine ⟨?_, hpair⟩
    rintro ⟨x, s, y, heq, hx, -⟩
    have hesc := (getElem?_sequence (x := x) (y := y) s).1
    rw [← heq, hsplit, getElem?_append_left (by omega)] at hesc
    exact lastIndexOf_none hnone (mem_of_getElem? hesc)
  next localEscape hsome =>
  obtain ⟨u, v, huv, rfl, hv⟩ := lastIndexOf_some hsome
  have htext : text = u ++ esc :: (v ++ text.drop stop) := by
    conv_lhs => rw [hsplit, huv]
    simp
  have hesc : text[u.length]? = some esc := by
    rw [htext, getElem?_append_right (Nat.le_refl _), Nat.sub_self]
    rfl
  have hopen : slice text (0 + u.length) stop = esc :: v := by
    have htake : (esc :: v).length = stop - u.length := by
      have := congrArg length huv
      rw [length_append, hlen] at this
      omega
    unfold slice
    rw [Nat.zero_add, ← htake]
    conv_lhs => rw [htext]
    rw [drop_left, ← cons_append]
    exact take_left
  rw [hopen, Nat.zero_add]
  split
  · next hunfinished =>
    split
    · exact clean_at_esc hesc
    -- the open sequence starts the chunk, so the chunk ends with it
    next hstart =>
    obtain rfl : u = [] := length_eq_zero_iff.mp (by omega)
    have hvlen : v.length + 1 = stop := by
      rw [← hlen, huv]
      rfl
    obtain ⟨d, v, rfl⟩ : ∃ d w, v = d :: w := exists_cons_of_length_pos (by omega)
    obtain ⟨rfl, hplain⟩ := unfinished_cons hunfinished
    obtain ⟨s, z, hs⟩ := hwf [] (v ++ text.drop stop) htext
    have hopened : text.take stop = esc :: bracket :: v := huv
    rw [nil_append] at hs
    rw [endOfSequence_eq hs hopened hlen hplain, hs]
    exact clean_behind s z
  next hfinished =>
  refine ⟨?_, hpair⟩
  rintro ⟨x, s, y, heq, hx, hend⟩
  have hxesc := (getElem?_sequence (x := x) (y := y) s).1
  have hother := (getElem?_sequence (x := x) (y := y) s).2 u.length
  rw [← heq] at hxesc hother
  have hlens := congrArg length huv
  rw [length_append, length_cons, hlen] at hlens
  have hxu : x.length ≤ u.length := by
    by_contra hlt'
    obtain ⟨i, hi⟩ : ∃ i, x.length = u.length + (i + 1) := ⟨x.length - u.length - 1, by omega⟩
    rw [htext, hi, getElem?_append_right (Nat.le_add_right _ _),
      Nat.add_sub_cancel_left, getElem?_cons_succ, getElem?_append_left (by omega)] at hxesc
    exact hv (mem_of_getElem? hxesc)
  have hux : u.length ≤ x.length := by
    by_contra hlt'
    exact hother (by omega) (by omega) hesc
  have heq' : u ++ (esc :: v ++ text.drop stop) = x ++ (s.text ++ y) :=
    (htext.symm.trans heq).trans (append_assoc x s.text y)
  obtain ⟨-, hrest⟩ := append_inj heq' (by omega)
  obtain ⟨w, hw, -⟩ := split_behind hrest (by rw [length_cons]; omega)
  have hwlen := congrArg length hw
  rw [length_append, length_cons] at hwlen
  have hunfinished := s.unfinished_of_prefix hw (cons_ne_nil _ _)
    (ne_nil_of_length_pos (by omega))
  exact hfinished hunfinished

/-- **A clean boundary makes no difference to the filter** -/
theorem strip_append_of_clean {a b : JsString} (hwf : WellFormed (a ++ b))
    (hclean : Clean (a ++ b) a.length) :
    stripSgrBackgroundColors (a ++ b) =
      stripSgrBackgroundColors a ++ stripSgrBackgroundColors b := by
  have hcut := scan_append none a b (by simp)
  rw [stripSgrBackgroundColors_eq, stripSgrBackgroundColors_eq a, stripSgrBackgroundColors_eq b, hcut]
  obtain ⟨x, hx⟩ := scan_suffix none a
  have hx : x ++ (scan none a).2 = a := hx
  rcases scan_unfinished none a (by simp) with hheld | hheld | ⟨v, hheld, hplain⟩
  · rw [hheld]
    simp
  · rw [hheld] at hx ⊢
    cases b with
    | nil => simp [scan]
    | cons c b =>
      have hne : c ≠ bracket := by
        rintro rfl
        obtain ⟨s, z, hs⟩ := hwf x b (by rw [← hx, append_assoc]; rfl)
        have hlen := s.length_text
        refine hclean.1 ⟨x, s, z, hs, ?_, ?_⟩
        · rw [← hx, length_append, length_singleton]
          omega
        · rw [← hx, length_append, length_singleton]
          omega
      have hstep : scan none (esc :: c :: b) = (esc :: (scan none (c :: b)).1, (scan none (c :: b)).2) := by
        simp [scan, hne]
      rw [singleton_append, hstep]
      simp
  exfalso
  rw [hheld] at hx
  obtain ⟨s, z, hs⟩ := hwf x (v ++ b) (by rw [← hx, append_assoc]; rfl)
  have hrest : v ++ b = s.body ++ s.final :: z := by
    have heq : x ++ (esc :: bracket :: (v ++ b)) = x ++ (s.text ++ z) := by
      rw [← append_assoc x s.text, ← hs, ← hx, append_assoc]
      rfl
    simpa [ControlSequence.text] using append_cancel_left heq
  have hle : v.length ≤ s.body.length := by
    have hbody : v ++ b.takeWhile (!isFinal ·) = s.body := by
      rw [← s.takeWhile_body z, ← hrest, takeWhile_append_of_pos]
      intro c hc
      rw [hplain c hc]
      rfl
    rw [← hbody, length_append]
    exact Nat.le_add_right _ _
  have hlen := s.length_text
  refine hclean.1 ⟨x, s, z, hs, ?_, ?_⟩
  · rw [← hx, length_append]
    simp
  · rw [← hx, length_append, length_cons, length_cons]
    omega

/-! ## the slices of a replay -/

/-- each of the slices ends at a clean boundary of the text -/
def CleanSlices (data : JsString) (slices : List JsString) : Prop :=
  ∀ pre post, slices = pre ++ post → Clean data pre.flatten.length

theorem replayFrom_clean (hlimit : 256 ≤ limit) {fuel : Nat} {x text : JsString}
    (hwf : WellFormed (x ++ text)) (hclean : Clean (x ++ text) x.length)
    (hfuel : text.length ≤ fuel) :
    (∀ pre post, replayFrom (x ++ text) limit fuel x.length = pre ++ post →
        Clean (x ++ text) (x ++ pre.flatten).length) ∧
      (replayFrom (x ++ text) limit fuel x.length).flatMap stripSgrBackgroundColors =
        stripSgrBackgroundColors text := by
  induction fuel generalizing x text with
  | zero =>
    obtain rfl : text = [] := length_eq_zero_iff.mp (by omega)
    refine ⟨fun pre post heq => ?_, rfl⟩
    obtain ⟨rfl, -⟩ := append_eq_nil_iff.mp heq.symm
    simpa using hclean
  | succ fuel ih =>
    unfold replayFrom
    by_cases hlt : x.length < (x ++ text).length
    · rw [if_pos hlt]
      have hbounds := chunkEnd_bounds hlt (show 2 ≤ limit by omega)
      rw [chunkEnd_shift x text (by omega)] at hbounds ⊢
      have hcut := chunkEnd_clean hwf.of_append hlimit
      generalize chunkEnd text 0 limit = n at hbounds hcut ⊢
      rw [length_append] at hbounds
      have hsplit : text = text.take n ++ text.drop n := (take_append_drop n text).symm
      have hn : (text.take n).length = n := length_take_of_le (by omega)
      have hslice : slice (x ++ text) x.length (x.length + n) = text.take n := by
        exact (slice_shift x text 0 n)
      have hwhole : x ++ text = (x ++ text.take n) ++ text.drop n := by
        rw [append_assoc, take_append_drop]
      have hlen : x.length + n = (x ++ text.take n).length := by rw [length_append, hn]
      have hnext : Clean (x ++ text) (x.length + n) := hclean.add hcut (by omega)
      have hrest : (text.drop n).length ≤ fuel := by
        rw [length_drop]
        omega
      obtain ⟨ihclean, ihstrip⟩ := ih (hwhole ▸ hwf) (by rw [← hwhole, ← hlen]; exact hnext) hrest
      rw [← hwhole, ← hlen] at ihclean ihstrip
      rw [hslice]
      constructor
      · intro pre post heq
        cases pre with
        | nil =>
          rw [flatten_nil, append_nil]
          exact hclean
        | cons c pre =>
          obtain ⟨rfl, htail⟩ := cons.inj heq
          rw [flatten_cons, ← append_assoc]
          exact ihclean pre post htail
      · rw [flatMap_cons, ihstrip]
        have hpiece := strip_append_of_clean (a := text.take n) (b := text.drop n)
          (by rw [← hsplit]; exact hwf.of_append) (by rw [← hsplit, hn]; exact hcut)
        rw [← hpiece, ← hsplit]
    · rw [if_neg hlt]
      rw [length_append] at hlt
      obtain rfl : text = [] := length_eq_zero_iff.mp (by omega)
      refine ⟨fun pre post heq => ?_, rfl⟩
      obtain ⟨rfl, -⟩ := append_eq_nil_iff.mp heq.symm
      simpa using hclean

theorem replayFrom_succ (data : JsString) (limit fuel offset : Nat) :
    replayFrom data limit (fuel + 1) offset =
      if offset < data.length then
        slice data offset (chunkEnd data offset limit) ::
          replayFrom data limit fuel (chunkEnd data offset limit)
      else [] :=
  rfl

theorem replayFrom_ends (hlimit : 2 ≤ limit) {fuel offset : Nat} (h : data.length - offset ≤ fuel) :
    replayFrom data limit (fuel + 1) offset = replayFrom data limit fuel offset := by
  induction fuel generalizing offset with
  | zero =>
    unfold replayFrom
    rw [if_neg (by omega)]
  | succ fuel ih =>
    rw [replayFrom_succ data limit (fuel + 1) offset, replayFrom_succ data limit fuel offset]
    by_cases hlt : offset < data.length
    · obtain ⟨hgt, hle⟩ := chunkEnd_bounds hlt hlimit
      rw [if_pos hlt, if_pos hlt, ih (by omega)]
    · rw [if_neg hlt, if_neg hlt]

/-- **A replay in slices is a replay of the whole**: the loop ends, the slices are the text, none of
them ends inside a pair or a sequence, and filtered one by one they are the filtered text. -/
theorem replay_clean (data : JsString) (chunkChars : Nat) (hwf : WellFormed data) :
    (∀ fuel, data.length ≤ fuel →
        replayFrom data (max 256 chunkChars) fuel 0 = writeTerminalReplay data chunkChars) ∧
      (writeTerminalReplay data chunkChars).flatten = data ∧
      CleanSlices data (writeTerminalReplay data chunkChars) ∧
      (writeTerminalReplay data chunkChars).flatMap stripSgrBackgroundColors =
        stripSgrBackgroundColors data := by
  have hstart : Clean ([] ++ data) ([] : JsString).length :=
    ⟨fun ⟨x, s, y, _, hlt, _⟩ => absurd hlt (Nat.not_lt_zero _),
      fun ⟨x, high, low, y, _, hlen, _⟩ => absurd hlen (Nat.succ_ne_zero _).symm⟩
  have hslices := replayFrom_clean (Nat.le_max_left 256 chunkChars)
    (show WellFormed ([] ++ data) from hwf) hstart (Nat.le_refl data.length)
  refine ⟨fun fuel hfuel => ?_, writeTerminalReplay_flatten data chunkChars, ?_, hslices.2⟩
  · induction fuel, hfuel using Nat.le_induction with
    | base => rfl
    | succ fuel hle ih =>
      rw [replayFrom_ends (by omega) (by omega)]
      exact ih
  · intro pre post heq
    exact hslices.1 pre post heq

/-- a red letter behind 254 others: the limit falls behind `ESC [` -/
def redLetter : JsString :=
  List.replicate 254 0x61 ++ JsString.ofString "\x1b[31mb"

theorem redLetter_clean :
    writeTerminalReplay redLetter 256 =
        [List.replicate 254 0x61, JsString.ofString "\x1b[31mb"] ∧
      CleanSlices redLetter (writeTerminalReplay redLetter 256) :=
  ⟨by decide +kernel, (replay_clean redLetter 256 (by decide +kernel)).2.2.1⟩

end CcPanes.SharedRenderer

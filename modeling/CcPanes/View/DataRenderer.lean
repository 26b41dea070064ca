import CcPanes.Foundation.GlobalMatch
import CcPanes.Foundation.JsString
import CcPanes.Foundation.Transducer
import Mathlib.Tactic.ByContra

/-!
# The renderer of terminal data

`terminalBufferMode.ts`: what a view does to the output of a session before it writes it to xterm.
Two filters, each of which may hold back the end of a piece until the next piece comes.
-/

namespace CcPanes
open List

variable {params : JsString} {c : UInt16} {t : UInt16} {x y : JsString}
  {context : TerminalDataRenderContext}

abbrev esc : UInt16 := 0x1b
abbrev bracket : UInt16 := 0x5b
abbrev question : UInt16 := 0x3f
abbrev semicolon : UInt16 := 0x3b
abbrev colon : UInt16 := 0x3a

def isDigit (c : UInt16) : Bool := 0x30 ≤ c && c ≤ 0x39

/-! ## the background stripper -/

def maxPendingSgrLength : Nat := 128

def digitsValue (value : JsString) : Nat :=
  value.foldl (fun n c => n * 10 + (c.toNat - 0x30)) 0

def parseSgrCode (value : JsString) : Option Nat :=
  if value ≠ [] ∧ value.all isDigit ∧ digitsValue value ≤ 9007199254740991 then
    some (digitsValue value)
  else none

/-- what the loop of `stripSgrBackgroundSequence` assigns -/
structure SgrFilter where
  kept : List JsString
  changed : Bool
  hasBackgroundReset : Bool

namespace SgrFilter

def resetBackground (f : SgrFilter) : SgrFilter where
  kept := if f.hasBackgroundReset then f.kept else f.kept ++ [JsString.ofString "49"]
  changed := true
  hasBackgroundReset := true

def push (f : SgrFilter) (group : JsString) : SgrFilter := { f with kept := f.kept ++ [group] }

end SgrFilter

/-- how many parameters after the group the background colour `48` takes -/
def backgroundSkip (colonParams : List JsString) (next : Option JsString) : Nat :=
  if colonParams.length > 1 then
    let mode := colonParams[1]?
    (if mode = some (JsString.ofString "2") then
      (if colonParams[2]? = some [] then 6 else 5) - colonParams.length
    else 0) + (if mode = some (JsString.ofString "5") ∧ colonParams.length < 3 then 1 else 0)
  else if next = some (JsString.ofString "5") then 2
  else if next = some (JsString.ofString "2") then 4
  else 0

/-- the loop over the parameters, the first `skip` of which a colour has taken -/
def filterParams (many : Bool) : (skip : Nat) → List JsString → SgrFilter → SgrFilter
  | _, [], f => f
  | skip + 1, _ :: params, f => filterParams many skip params f
  | 0, group :: params, f =>
    let colonParams := group.splitOn colon
    match parseSgrCode (colonParams.headD []) with
    | none => filterParams many 0 params (f.push group)
    | some value =>
      if value = 48 then
        filterParams many (backgroundSkip colonParams params.head?) params f.resetBackground
      else if value = 7 ∧ many then filterParams many 0 params { f with changed := true }
      else if value = 49 ∨ (40 ≤ value ∧ value ≤ 47) ∨ (100 ≤ value ∧ value ≤ 107) then
        filterParams many 0 params f.resetBackground
      else filterParams many 0 params (f.push group)

def stripSgrBackgroundSequence (sequence : JsString) : JsString :=
  if sequence.getLast? ≠ some 0x6d then sequence
  else
    let params := ((sequence.drop 2).dropLast).splitOn semicolon
    let f := filterParams (params.length > 1) 0 params ⟨[], false, false⟩
    if !f.changed then sequence
    else if f.kept = [] then []
    else [esc, bracket] ++ [semicolon].intercalate f.kept ++ [0x6d]

def isFinal (c : UInt16) : Bool := 0x40 ≤ c && c ≤ 0x7e

/-- the loop of `push`: the output and the unfinished rest; in `some acc` the sequence `acc` is
open -/
def scan : Option JsString → JsString → JsString × JsString
  | none, [] => ([], [])
  | none, [c] => if c = esc then ([], [c]) else ([c], [])
  | none, c :: d :: rest =>
    if c = esc ∧ d = bracket then scan (some [c, d]) rest
    else (c :: (scan none (d :: rest)).1, (scan none (d :: rest)).2)
  | some acc, [] => ([], acc)
  | some acc, c :: rest =>
    if isFinal c then
      (stripSgrBackgroundSequence (acc ++ [c]) ++ (scan none rest).1, (scan none rest).2)
    else scan (some (acc ++ [c])) rest

/-- `push`: what is pending afterwards, and what comes out -/
def sgrPush (pending chunk : JsString) : JsString × JsString :=
  let r := scan none (pending ++ chunk)
  if r.2.length ≤ maxPendingSgrLength then (r.2, r.1) else ([], r.1 ++ r.2)

theorem scan_none_cons (hc : c ≠ esc) (l : JsString) :
    scan none (c :: l) = (c :: (scan none l).1, (scan none l).2) := by
  cases l with
  | nil => simp [scan, hc]
  | cons => simp [scan, hc]

theorem scan_some {x : JsString} (hx : ∀ c ∈ x, isFinal c = false) (acc b : JsString) :
    scan (some acc) (x ++ b) = scan (some (acc ++ x)) b := by
  induction x generalizing acc with
  | nil => rw [nil_append, append_nil]
  | cons c x ih =>
    rw [forall_mem_cons] at hx
    have hstep : scan (some acc) (c :: (x ++ b)) = scan (some (acc ++ [c])) (x ++ b) := by
      simp [scan, hx.1]
    rw [cons_append, hstep, ih hx.2, append_assoc]
    rfl

def OpenSequence (acc : JsString) : Prop :=
  ∃ x, acc = esc :: bracket :: x ∧ ∀ c ∈ x, isFinal c = false

theorem OpenSequence.concat {acc : JsString} (h : OpenSequence acc) (hc : isFinal c = false) :
    OpenSequence (acc ++ [c]) := by
  obtain ⟨x, rfl, hx⟩ := h
  refine ⟨x ++ [c], rfl, fun d hd => ?_⟩
  rcases mem_append.mp hd with hd | hd
  · exact hx d hd
  · rw [mem_singleton.mp hd, hc]

theorem OpenSequence.scan {acc : JsString} (h : OpenSequence acc) (b : JsString) :
    scan none (acc ++ b) = scan (some acc) b := by
  obtain ⟨x, rfl, hx⟩ := h
  have hstart : CcPanes.scan none (esc :: bracket :: (x ++ b)) =
      CcPanes.scan (some [esc, bracket]) (x ++ b) := by
    simp [CcPanes.scan]
  exact hstart.trans (scan_some hx [esc, bracket] b)

/-- **A cut of the input**: the scan goes on from the unfinished rest -/
theorem scan_append (m : Option JsString) (a b : JsString) (hm : ∀ acc ∈ m, OpenSequence acc) :
    scan m (a ++ b) =
      ((scan m a).1 ++ (scan none ((scan m a).2 ++ b)).1, (scan none ((scan m a).2 ++ b)).2) := by
  fun_induction scan m a with
  | case1 => rfl
  | case2 => rfl
  | case3 c hc => exact scan_none_cons hc b
  | case4 c d rest h ih =>
    obtain ⟨rfl, rfl⟩ := h
    have hstart : scan none (esc :: bracket :: (rest ++ b)) =
        scan (some [esc, bracket]) (rest ++ b) := by
      simp [scan]
    have hopen : OpenSequence [esc, bracket] := ⟨[], rfl, by simp⟩
    exact hstart.trans (ih fun acc h => by obtain rfl := Option.some.inj h; exact hopen)
  | case5 c d rest h ih =>
    have hstep : scan none (c :: d :: (rest ++ b)) =
        (c :: (scan none (d :: (rest ++ b))).1, (scan none (d :: (rest ++ b))).2) := by
      simp [scan, h]
    have ih := ih (by simp)
    rw [cons_append] at ih
    rw [cons_append, cons_append, hstep, ih]
    rfl
  | case6 acc =>
    show scan (some acc) b = ([] ++ _, _)
    rw [(hm acc rfl).scan]
    rfl
  | case7 acc c rest hc ih =>
    have hstep : scan (some acc) (c :: (rest ++ b)) =
        (stripSgrBackgroundSequence (acc ++ [c]) ++ (scan none (rest ++ b)).1,
          (scan none (rest ++ b)).2) := by
      simp [scan, hc]
    rw [cons_append, hstep, ih (by simp), append_assoc]
  | case8 acc c rest hc ih =>
    have hstep : scan (some acc) (c :: (rest ++ b)) = scan (some (acc ++ [c])) (rest ++ b) := by
      simp [scan, hc]
    have hopen : OpenSequence (acc ++ [c]) := (hm acc rfl).concat (by simpa using hc)
    rw [cons_append, hstep]
    exact ih fun acc' h => by obtain rfl := Option.some.inj h; exact hopen

theorem sgrPush_held {pending chunk : JsString}
    (h : (scan none (pending ++ chunk)).2.length ≤ maxPendingSgrLength) :
    sgrPush pending chunk = ((scan none (pending ++ chunk)).2, (scan none (pending ++ chunk)).1) :=
  if_pos h

theorem sgrPush_released {pending chunk : JsString}
    (h : ¬ (scan none (pending ++ chunk)).2.length ≤ maxPendingSgrLength) :
    sgrPush pending chunk =
      ([], (scan none (pending ++ chunk)).1 ++ (scan none (pending ++ chunk)).2) :=
  if_neg h

theorem sgrPush_splits {pending a : JsString}
    (h : (scan none (pending ++ a)).2.length ≤ maxPendingSgrLength) :
    Transducer.Splits sgrPush pending a := by
  intro b
  have hcut := scan_append none (pending ++ a) b (by simp)
  rw [append_assoc] at hcut
  rw [sgrPush_held h]
  by_cases hb : (scan none ((scan none (pending ++ a)).2 ++ b)).2.length ≤ maxPendingSgrLength
  · rw [sgrPush_held hb, sgrPush_held (by rw [hcut]; exact hb), hcut]
  · rw [sgrPush_released hb, sgrPush_released (by rw [hcut]; exact hb), hcut, append_assoc]

/-! ## the alternate-screen stripper -/

def maxPartialTailLength : Nat := 32

def alternateBufferModes : List JsString :=
  [JsString.ofString "1049", JsString.ofString "1047", JsString.ofString "47"]

def isParamChar (c : UInt16) : Bool := isDigit c || c == semicolon

/-- the tail `\x1b(?:\[(?:\?[\d;]*)?)?` -/
def isPartialSequence : JsString → Bool
  | [] => false
  | [c] => c == esc
  | [c, d] => c == esc && d == bracket
  | c :: d :: q :: params => c == esc && d == bracket && q == question && params.all isParamChar

/-- the match of `PARTIAL_SEQUENCE_TAIL`, empty where there is none -/
def partialTail : JsString → JsString
  | [] => []
  | c :: l => if isPartialSequence (c :: l) then c :: l else partialTail l

/-- `\d+(?:;\d+)*` -/
def isParamList (params : JsString) : Bool :=
  params.all isParamChar && (params.splitOn semicolon).all (!·.isEmpty)

/-- the sequence of these parameters and this terminator -/
def privateModeSequence (params : JsString) (terminator : UInt16) : JsString :=
  esc :: bracket :: question :: (params ++ [terminator])

/-- a match of `PRIVATE_MODE_SEQUENCE_SOURCE` at the start of the text: parameters, terminator -/
def matchPrivateMode : JsString → Option (JsString × UInt16)
  | c :: d :: q :: rest =>
    let params := rest.takeWhile isParamChar
    match rest.dropWhile isParamChar with
    | [] => none
    | t :: _ =>
      if c = esc ∧ d = bracket ∧ q = question ∧ isParamList params ∧ (t = 0x68 ∨ t = 0x6c) then
        some (params, t)
      else none
  | _ => none

def keepOtherModes (params : JsString) (terminator : UInt16) : JsString :=
  let kept := (params.splitOn semicolon).filter (!alternateBufferModes.contains ·)
  if kept.length = (params.splitOn semicolon).length then privateModeSequence params terminator
  else if kept = [] then []
  else privateModeSequence ([semicolon].intercalate kept) terminator

/-- the global replacement, `skip` characters of the last match still to pass -/
def stripFrom : (skip : Nat) → JsString → JsString
  | _, [] => []
  | skip + 1, _ :: l => stripFrom skip l
  | 0, c :: l =>
    match matchPrivateMode (c :: l) with
    | some (params, t) => keepOtherModes params t ++ stripFrom (params.length + 3) l
    | none => c :: stripFrom 0 l

def stripAlternateBufferSequences (data : JsString) : JsString := stripFrom 0 data

/-- `push`: what is pending afterwards, and what comes out -/
def altPush (pending chunk : JsString) : JsString × JsString :=
  let combined := pending ++ chunk
  let tail := partialTail combined
  if tail ≠ [] ∧ tail.length ≤ maxPartialTailLength then
    (tail, stripAlternateBufferSequences (combined.take (combined.length - tail.length)))
  else ([], stripAlternateBufferSequences combined)

/-! ### matches -/

theorem isPartialSequence_head {l : JsString} (h : isPartialSequence (c :: l) = true) :
    c = esc := by
  match l, h with
  | [], h => simpa [isPartialSequence] using h
  | [_], h => simp [isPartialSequence] at h; exact h.1
  | _ :: _ :: _, h => simp [isPartialSequence] at h; exact h.1.1.1

theorem isPartialSequence_left {a b : JsString} (ha : a ≠ [])
    (h : isPartialSequence (a ++ b) = true) : isPartialSequence a = true := by
  match a, b, ha, h with
  | [c], b, _, h =>
    rw [isPartialSequence_head h]
    rfl
  | [c, d], [], _, h => exact h
  | [c, d], q :: b, _, h => simp_all [isPartialSequence]
  | c :: d :: q :: params, b, _, h => simp_all [isPartialSequence]

theorem isPartialSequence_params (h : params.all isParamChar = true) :
    isPartialSequence (esc :: bracket :: question :: params) = true := by
  simpa [isPartialSequence] using h

theorem isParamChar_esc : isParamChar esc = false := by decide

theorem isParamChar_terminator (h : t = 0x68 ∨ t = 0x6c) : isParamChar t = false := by
  rcases h with rfl | rfl <;> decide

theorem matchPrivateMode_eq_some {s params : JsString} :
    matchPrivateMode s = some (params, t) ↔
      isParamList params = true ∧ (t = 0x68 ∨ t = 0x6c) ∧
        ∃ rest, s = privateModeSequence params t ++ rest := by
  constructor
  · intro h
    unfold matchPrivateMode at h
    split at h
    · next c d q rest =>
      simp only at h
      split at h
      · cases h
      next u rest' hdrop =>
      split at h
      · next hc =>
        obtain ⟨rfl, rfl, rfl, hlist, ht⟩ := hc
        obtain ⟨rfl, rfl⟩ := Prod.mk.inj (Option.some.inj h)
        have hrest : rest = rest.takeWhile isParamChar ++ u :: rest' := by
          rw [← hdrop, takeWhile_append_dropWhile]
        refine ⟨hlist, ht, rest', ?_⟩
        rw [privateModeSequence, cons_append, cons_append, cons_append,
          append_assoc, singleton_append, ← hrest]
      · cases h
    · cases h
  rintro ⟨hlist, ht, rest, rfl⟩
  have hall : ∀ c ∈ params, isParamChar c = true := by
    rw [isParamList, Bool.and_eq_true, all_eq_true] at hlist
    exact hlist.1
  have htake : (params ++ t :: rest).takeWhile isParamChar = params := by
    rw [takeWhile_append_of_pos hall,
      takeWhile_cons_of_neg (by simp [isParamChar_terminator ht]), append_nil]
  have hdrop : (params ++ t :: rest).dropWhile isParamChar = t :: rest := by
    rw [dropWhile_append_of_pos hall, dropWhile_cons_of_neg (by simp [isParamChar_terminator ht])]
  simp [privateModeSequence, matchPrivateMode, htake, hdrop, hlist, ht]

theorem esc_notMem_sequence (h : isParamList params = true) (ht : t = 0x68 ∨ t = 0x6c) :
    esc ∉ bracket :: question :: (params ++ [t]) := by
  intro hm
  simp only [mem_cons, mem_append, not_mem_nil, or_false] at hm
  rcases hm with hm | hm | hm | hm
  · exact absurd hm (by decide)
  · exact absurd hm (by decide)
  · rw [isParamList, Bool.and_eq_true, all_eq_true] at h
    exact absurd (h.1 esc hm) (by rw [isParamChar_esc]; simp)
  · subst hm
    exact absurd ht (by decide)

abbrev PrivateMode := JsString × UInt16

/-- the pattern `PRIVATE_MODE_SEQUENCE_SOURCE` -/
def privateModes : GlobalMatch.Matcher UInt16 PrivateMode where
  find := matchPrivateMode
  Valid m := isParamList m.1 = true ∧ (m.2 = 0x68 ∨ m.2 = 0x6c)
  text m := privateModeSequence m.1 m.2
  text_ne := by
    intro m _
    exact List.cons_ne_nil _ _
  find_eq_some := by
    intro s m
    rw [matchPrivateMode_eq_some, and_assoc]
    refine and_congr_right fun _ => and_congr_right fun _ => ?_
    exact exists_congr fun rest => eq_comm

theorem privateModes_anchored : GlobalMatch.Anchored privateModes esc := by
  intro m hm
  exact ⟨_, rfl, esc_notMem_sequence hm.1 hm.2⟩

theorem isPartialSequence_of_match {m : PrivateMode} (hm : privateModes.Valid m)
    {s a : JsString} (htext : privateModes.text m = s ++ a) (hs : s ≠ []) (ha : a ≠ []) :
    isPartialSequence s = true := by
  have hparams : (esc :: bracket :: question :: m.1 ++ [m.2]).dropLast =
      esc :: bracket :: question :: m.1 :=
    dropLast_concat
  have htext : esc :: bracket :: question :: m.1 ++ [m.2] = s ++ a := htext
  rw [htext, dropLast_append_of_ne_nil ha] at hparams
  obtain ⟨hlist, -⟩ := hm
  rw [isParamList, Bool.and_eq_true] at hlist
  have hpart := isPartialSequence_params hlist.1
  rw [← hparams] at hpart
  exact isPartialSequence_left hs hpart

/-! ### the tail -/

theorem partialTail_eq_self {a : JsString} (h : isPartialSequence a = true) :
    partialTail a = a := by
  cases a with
  | nil => rfl
  | cons => exact if_pos h

theorem partialTail_suffix (a : JsString) : partialTail a <:+ a := by
  induction a with
  | nil => exact suffix_rfl
  | cons c l ih =>
    unfold partialTail
    split
    · exact suffix_rfl
    · exact ih.trans (suffix_cons c l)

theorem partialTail_head {a : JsString} (h : partialTail a ≠ []) :
    (partialTail a).head? = some esc := by
  induction a with
  | nil => exact absurd rfl h
  | cons c l ih =>
    unfold partialTail at h ⊢
    split
    · next hc => rw [isPartialSequence_head hc]; rfl
    · next hc => exact ih (by simpa [hc] using h)

theorem partialTail_append (a b : JsString) :
    partialTail (a ++ b) = partialTail (partialTail a ++ b) := by
  induction a with
  | nil => rfl
  | cons c l ih =>
    by_cases hc : isPartialSequence (c :: l) = true
    · rw [partialTail_eq_self hc]
    have hb : ¬ isPartialSequence (c :: (l ++ b)) = true := fun h =>
      hc (isPartialSequence_left (by simp) h)
    have hl : partialTail (c :: l) = partialTail l := if_neg hc
    have hlb : partialTail (c :: (l ++ b)) = partialTail (l ++ b) := if_neg hb
    rw [hl, cons_append, hlb, ih]

theorem partialTail_suffix_eq_nil {a b : JsString} (h : partialTail (a ++ b) = []) :
    partialTail b = [] := by
  induction a with
  | nil => exact h
  | cons c l ih =>
    rw [cons_append] at h
    unfold partialTail at h
    split at h
    · cases h
    · exact ih h

theorem partialTail_ne_nil {s x : JsString} (hs : s ≠ []) (hpart : isPartialSequence s = true)
    (hsx : s <:+ x) : partialTail x ≠ [] := by
  obtain ⟨y, rfl⟩ := hsx
  intro hnil
  have htail := partialTail_suffix_eq_nil hnil
  rw [partialTail_eq_self hpart] at htail
  exact hs htail

/-! ### the replacement -/

theorem stripFrom_eq (k : Nat) (l : JsString) :
    stripFrom k l = stripAlternateBufferSequences (l.drop k) := by
  induction l generalizing k with
  | nil => cases k <;> rfl
  | cons c l ih =>
    cases k with
    | zero => rfl
    | succ k => exact ih k

theorem strip_sequence (h : isParamList params = true) (ht : t = 0x68 ∨ t = 0x6c)
    (rest : JsString) :
    stripAlternateBufferSequences (privateModeSequence params t ++ rest) =
      keepOtherModes params t ++ stripAlternateBufferSequences rest := by
  have hm := matchPrivateMode_eq_some.mpr ⟨h, ht, rest, rfl⟩
  have hdrop : (bracket :: question :: (params ++ [t]) ++ rest).drop (params.length + 3) = rest :=
    drop_left' (by simp)
  rw [privateModeSequence, cons_append] at hm
  show stripFrom 0 (esc :: (bracket :: question :: (params ++ [t]) ++ rest)) = _
  unfold stripFrom
  rw [hm]
  show _ ++ stripFrom (params.length + 3) _ = _
  rw [stripFrom_eq, hdrop]

theorem strip_cons {l : JsString} (h : matchPrivateMode (c :: l) = none) :
    stripAlternateBufferSequences (c :: l) = c :: stripAlternateBufferSequences l := by
  unfold stripAlternateBufferSequences
  conv => lhs; unfold stripFrom
  rw [h]

theorem strip_eq_replace (data : JsString) :
    stripAlternateBufferSequences data =
      GlobalMatch.replace privateModes (fun m => keepOtherModes m.1 m.2) data := by
  induction data using GlobalMatch.reading_induction (M := privateModes) with
  | nil => rfl
  | symbol c l hfind ih => rw [strip_cons hfind, GlobalMatch.replace_symbol _ hfind, ih]
  | found m l hm ih =>
    rw [GlobalMatch.replace_match _ hm, ← ih]
    exact strip_sequence hm.1 hm.2 l

/-- where `x` ends outside a partial sequence or `y` begins with an escape, no match of a sequence
spans the two -/
def Uncrossed (x y : JsString) : Prop := partialTail x = [] ∨ y = [] ∨ y.head? = some esc

theorem Uncrossed.not_spans (hxy : Uncrossed x y) : ¬ GlobalMatch.Spans privateModes x y := by
  rcases hxy with hnil | hhead
  · rintro ⟨m, s, a, hm, hs, ha, htext, hsx, -⟩
    exact partialTail_ne_nil hs (isPartialSequence_of_match hm htext hs ha) hsx hnil
  · exact privateModes_anchored.not_spans x hhead

/-- **The replacement goes on from a cut that no match spans** -/
theorem strip_cut (h : ¬ GlobalMatch.Spans privateModes x y) :
    stripAlternateBufferSequences (x ++ y) =
      stripAlternateBufferSequences x ++ stripAlternateBufferSequences y := by
  rw [strip_eq_replace, strip_eq_replace, strip_eq_replace, GlobalMatch.replace_append _ h]

theorem strip_append (hxy : Uncrossed x y) :
    stripAlternateBufferSequences (x ++ y) =
      stripAlternateBufferSequences x ++ stripAlternateBufferSequences y :=
  strip_cut hxy.not_spans

/-! ### cuts -/

def beforeTail (a : JsString) : JsString := a.take (a.length - (partialTail a).length)

theorem beforeTail_append (a : JsString) : beforeTail a ++ partialTail a = a := by
  obtain ⟨x, hx⟩ := partialTail_suffix a
  have hlen := congrArg length hx
  rw [length_append] at hlen
  have hbefore : beforeTail a = x := by
    unfold beforeTail
    rw [show a.length - (partialTail a).length = x.length by omega]
    conv => lhs; rw [← hx]
    exact take_left
  rw [hbefore, hx]

theorem beforeTail_cut (a b : JsString) :
    beforeTail (a ++ b) = beforeTail a ++ beforeTail (partialTail a ++ b) := by
  have h1 := beforeTail_append (a ++ b)
  have h2 := beforeTail_append (partialTail a ++ b)
  rw [partialTail_append] at h1
  refine (append_left_inj (partialTail (partialTail a ++ b))).mp ?_
  rw [h1, append_assoc, h2, ← append_assoc, beforeTail_append]

theorem altPush_held {pending chunk : JsString}
    (h : (partialTail (pending ++ chunk)).length ≤ maxPartialTailLength) :
    altPush pending chunk = (partialTail (pending ++ chunk),
      stripAlternateBufferSequences (beforeTail (pending ++ chunk))) := by
  by_cases hne : partialTail (pending ++ chunk) = []
  · have hbefore := beforeTail_append (pending ++ chunk)
    rw [hne, append_nil] at hbefore
    rw [hne, hbefore]
    exact if_neg fun hc => hc.1 hne
  · exact if_pos ⟨hne, h⟩

theorem altPush_released {pending chunk : JsString}
    (h : ¬ (partialTail (pending ++ chunk)).length ≤ maxPartialTailLength) :
    altPush pending chunk = ([], stripAlternateBufferSequences (pending ++ chunk)) :=
  if_neg fun hc => h hc.2

theorem uncrossed_tail {a b y z : JsString} (h : y ++ z = partialTail a ++ b) :
    Uncrossed (beforeTail a) y := by
  by_cases hne : partialTail a = []
  · refine .inl ?_
    have hbefore := beforeTail_append a
    rw [hne, append_nil] at hbefore
    rw [hbefore, hne]
  refine .inr ?_
  cases y with
  | nil => exact .inl rfl
  | cons =>
    refine .inr ?_
    have hhead := congrArg head? h
    rw [head?_append, head?_append, partialTail_head hne] at hhead
    exact hhead

theorem altPush_splits {pending a : JsString}
    (h : (partialTail (pending ++ a)).length ≤ maxPartialTailLength) :
    Transducer.Splits altPush pending a := by
  intro b
  rw [altPush_held h]
  have hcut := beforeTail_cut (pending ++ a) b
  have htail := partialTail_append (pending ++ a) b
  rw [append_assoc] at hcut htail
  by_cases hb : (partialTail (partialTail (pending ++ a) ++ b)).length ≤ maxPartialTailLength
  · have hsplit :=
      strip_append (uncrossed_tail (beforeTail_append (partialTail (pending ++ a) ++ b)))
    rw [altPush_held hb, altPush_held (by rw [htail]; exact hb), hcut, htail, hsplit]
  have hsplit :=
    strip_append (uncrossed_tail (append_nil (partialTail (pending ++ a) ++ b)))
  rw [← append_assoc (beforeTail _), beforeTail_append, append_assoc] at hsplit
  rw [altPush_released hb, altPush_released (by rw [htail]; exact hb), hsplit]

/-! ## the renderer -/

structure TerminalDataRenderContext where
  keepCliOutputInNormalBuffer : Bool
  sessionId : Option String
  stripBackgroundColors : Bool

/-- the strippers by what is pending in them -/
structure TerminalDataRenderer where
  stripper : Option JsString
  backgroundStripper : Option JsString
  activeSessionId : Option String

def createTerminalDataRenderer : TerminalDataRenderer := ⟨none, none, none⟩

def presentId (id : Option String) : Bool := id.any (· ≠ "")

def render (r : TerminalDataRenderer) (data : JsString) (context : TerminalDataRenderContext) :
    TerminalDataRenderer × JsString :=
  let switched : Prop :=
    presentId context.sessionId ∧ presentId r.activeSessionId ∧
      context.sessionId ≠ r.activeSessionId
  let stripper := if switched then none else r.stripper
  let backgroundStripper := if switched then none else r.backgroundStripper
  let activeSessionId :=
    if presentId context.sessionId then context.sessionId else r.activeSessionId
  let background : Option JsString × JsString :=
    if context.stripBackgroundColors then
      let pushed := sgrPush (backgroundStripper.getD []) data
      (some pushed.1, pushed.2)
    else (none, data)
  if !context.keepCliOutputInNormalBuffer then
    (⟨none, background.1, activeSessionId⟩, background.2)
  else
    let pushed := altPush (stripper.getD []) background.2
    (⟨some pushed.1, background.1, activeSessionId⟩, pushed.2)

/-- what the renderer holds back: in the background stripper and in the other -/
def TerminalDataRenderer.pending (r : TerminalDataRenderer) : JsString × JsString :=
  (r.backgroundStripper.getD [], r.stripper.getD [])

def filterIf (on : Bool) (push : JsString → JsString → JsString × JsString)
    (pending chunk : JsString) : JsString × JsString :=
  if on then push pending chunk else (pending, chunk)

def filters (context : TerminalDataRenderContext) :
    JsString × JsString → JsString → (JsString × JsString) × JsString :=
  Transducer.comp (filterIf context.stripBackgroundColors sgrPush)
    (filterIf context.keepCliOutputInNormalBuffer altPush)

/-- the renderer has been used in this context only -/
structure Serves (context : TerminalDataRenderContext) (r : TerminalDataRenderer) : Prop where
  session : r.activeSessionId = none ∨ r.activeSessionId = context.sessionId
  background : context.stripBackgroundColors = false → r.backgroundStripper = none
  alternate : context.keepCliOutputInNormalBuffer = false → r.stripper = none

theorem serves_fresh (context : TerminalDataRenderContext) :
    Serves context createTerminalDataRenderer :=
  ⟨.inl rfl, fun _ => rfl, fun _ => rfl⟩

theorem Serves.not_switched {r : TerminalDataRenderer} (h : Serves context r) :
    ¬ (presentId context.sessionId ∧ presentId r.activeSessionId ∧
      context.sessionId ≠ r.activeSessionId) := by
  rintro ⟨-, hr, hne⟩
  rcases h.session with hs | hs
  · rw [hs] at hr
    cases hr
  · exact hne hs.symm

/-- **In one context, the renderer is the two filters in sequence** -/
theorem render_sees (context : TerminalDataRenderContext) :
    Transducer.Sees (fun r data => render r data context) (filters context)
      TerminalDataRenderer.pending (Serves context) := by
  intro r data h
  have hkept := h.not_switched
  have hsession : (if presentId context.sessionId then context.sessionId else r.activeSessionId)
      = none ∨ (if presentId context.sessionId then context.sessionId else r.activeSessionId)
      = context.sessionId := by
    split
    · exact .inr rfl
    · exact h.session
  have hbg := h.background
  have halt := h.alternate
  obtain ⟨keep, sid, strip⟩ := context
  obtain ⟨stripper, backgroundStripper, active⟩ := r
  cases keep <;> cases strip
  all_goals
    simp only [render, filters, filterIf, Transducer.comp, TerminalDataRenderer.pending,
      if_neg hkept]
    refine ⟨⟨hsession, ?_, ?_⟩, ?_⟩ <;> simp_all

/-- the unfinished tail of a text, as far as the renderer holds it back, is not too long -/
structure ShortTail (context : TerminalDataRenderContext) (text : JsString) : Prop where
  background : context.stripBackgroundColors = true →
    (scan none text).2.length ≤ maxPendingSgrLength
  alternate : context.keepCliOutputInNormalBuffer = true →
    (partialTail (filterIf context.stripBackgroundColors sgrPush [] text).2).length
      ≤ maxPartialTailLength

theorem filters_splits {text : JsString} (h : ShortTail context text) :
    Transducer.Splits (filters context) ([], []) text := by
  have hb : Transducer.Splits (filterIf context.stripBackgroundColors sgrPush) [] text := by
    cases hc : context.stripBackgroundColors with
    | false => exact fun b => rfl
    | true => exact sgrPush_splits (h.background hc)
  refine hb.comp ?_
  cases hc : context.keepCliOutputInNormalBuffer with
  | false => exact fun b => rfl
  | true => exact altPush_splits (h.alternate hc)

theorem filters_nil (context : TerminalDataRenderContext) :
    filters context ([], []) [] = (([], []), []) := by
  have hb : ∀ on, filterIf on sgrPush [] [] = ([], []) := by decide
  have ha : ∀ on, filterIf on altPush [] [] = ([], []) := by decide
  simp only [filters, Transducer.comp, hb, ha]

end CcPanes

import CcPanes.Terminal.OscStateDetect

/-!
# Where the detector finds a frame

A frame of a hook is `ESC ] 777;notify;CCPanes;<agent>;<event>` with its end.  The detector finds it
behind any bytes that do not end inside an OSC: there the escape of the frame aborts the open OSC and
the `]` is thrown away.
-/

namespace CcPanes.OscDetect
open List

variable {d : OscStateDetector}

/-! ## the bytes before a frame -/

def IsBody (body : Bytes) : Prop := bel ∉ body ∧ esc ∉ body

def escapes (n : Nat) : Bytes := List.replicate n esc

/-- what takes the ground state back to the ground state -/
inductive Item : Bytes → Prop
  | text (b : UInt8) : b ≠ esc → Item [b]
  | escape (n : Nat) (b : UInt8) : b ≠ esc → b ≠ oscIntro → Item (escapes (n + 1) ++ [b])
  | bell (n : Nat) (body : Bytes) : IsBody body → body.length ≤ oscMax →
      Item (escapes (n + 1) ++ oscIntro :: body ++ [bel])
  | string (n : Nat) (body : Bytes) (m : Nat) (b : UInt8) : IsBody body → body.length ≤ oscMax →
      b ≠ esc → Item (escapes (n + 1) ++ oscIntro :: body ++ escapes (m + 1) ++ [b])
  | overlong (n : Nat) (body : Bytes) : IsBody body → body.length = oscMax + 1 →
      Item (escapes (n + 1) ++ oscIntro :: body)

def Items (p : Bytes) : Prop := ∃ items : List Bytes, (∀ i ∈ items, Item i) ∧ p = items.flatten

def OutsideOsc (p : Bytes) : Prop := ∃ q k, Items q ∧ p = q ++ escapes k

theorem Items.nil : Items [] := ⟨[], nofun, rfl⟩

theorem Items.snoc {q i : Bytes} (hq : Items q) (hi : Item i) : Items (q ++ i) := by
  obtain ⟨items, hitems, rfl⟩ := hq
  refine ⟨items ++ [i], ?_, ?_⟩
  · intro j hj
    obtain hj | hj := mem_append.mp hj
    · exact hitems j hj
    · rw [mem_singleton.mp hj]
      exact hi
  · rw [flatten_append, flatten_singleton]

theorem escapes_succ (n : Nat) : escapes (n + 1) = escapes n ++ [esc] := replicate_succ'

theorem IsBody.snoc {body : Bytes} (h : IsBody body) {b : UInt8} (hbel : b ≠ bel) (hesc : b ≠ esc) :
    IsBody (body ++ [b]) := by
  refine ⟨?_, ?_⟩
  · rw [mem_append, mem_singleton]
    rintro (hb | rfl)
    · exact h.1 hb
    · exact hbel rfl
  rw [mem_append, mem_singleton]
  rintro (hb | rfl)
  · exact h.2 hb
  · exact hesc rfl

theorem byteStep_of {s : State} (hd : d.state = s) (hs : s ≠ .ground) (b : UInt8) :
    byteStep d b = readByte d b := by
  apply if_neg
  rw [hd]
  exact hs

def Shape (d : OscStateDetector) (p : Bytes) : Prop :=
  match d.state with
  | .ground => Items p
  | .esc => ∃ q n, Items q ∧ p = q ++ escapes (n + 1)
  | .osc => ∃ q n, Items q ∧ IsBody d.osc ∧ d.osc.length ≤ oscMax ∧
      p = q ++ (escapes (n + 1) ++ oscIntro :: d.osc)
  | .oscEsc => ∃ q n m, Items q ∧ IsBody d.osc ∧ d.osc.length ≤ oscMax ∧
      p = q ++ (escapes (n + 1) ++ oscIntro :: d.osc ++ escapes (m + 1))

theorem shape_step {p : Bytes} (h : Shape d p) (b : UInt8) : Shape (byteStep d b).1 (p ++ [b]) := by
  unfold Shape at h
  cases hs : d.state with
  | ground =>
    rw [hs] at h
    rw [byteStep, if_pos hs]
    by_cases hb : b = esc
    · rw [if_pos hb]
      exact ⟨p, 0, h, by rw [hb]; rfl⟩
    rw [if_neg hb]
    unfold Shape
    rw [hs]
    exact h.snoc (.text b hb)
  | esc =>
    rw [hs] at h
    obtain ⟨q, n, hq, rfl⟩ := h
    rw [byteStep_of hs (by decide), readByte, hs]
    dsimp only
    by_cases hintro : b = oscIntro
    · rw [if_pos hintro]
      refine ⟨q, n, hq, ⟨not_mem_nil, not_mem_nil⟩, Nat.zero_le _, ?_⟩
      rw [hintro, append_assoc]
    rw [if_neg hintro]
    by_cases hesc : b = esc
    · rw [if_pos hesc]
      unfold Shape
      rw [hs]
      exact ⟨q, n + 1, hq, by rw [hesc, escapes_succ (n + 1), append_assoc]⟩
    rw [if_neg hesc]
    show Items _
    rw [append_assoc]
    exact hq.snoc (.escape n b hesc hintro)
  | osc =>
    rw [hs] at h
    obtain ⟨q, n, hq, hbody, hlen, rfl⟩ := h
    rw [byteStep_of hs (by decide), readByte, hs]
    dsimp only
    by_cases hbel : b = bel
    · rw [if_pos hbel]
      show Items _
      rw [hbel, append_assoc]
      exact hq.snoc (.bell n d.osc hbody hlen)
    rw [if_neg hbel]
    by_cases hesc : b = esc
    · rw [if_pos hesc]
      refine ⟨q, n, 0, hq, hbody, hlen, ?_⟩
      rw [hesc, append_assoc]
      rfl
    rw [if_neg hesc]
    by_cases hlt : d.osc.length < oscMax
    · rw [if_pos hlt]
      refine ⟨q, n, hq, hbody.snoc hbel hesc, ?_, ?_⟩
      · rw [length_append]
        exact hlt
      · rw [append_assoc, append_assoc]
        rfl
    rw [if_neg hlt]
    show Items _
    have hfull : (d.osc ++ [b]).length = oscMax + 1 := by
      rw [length_append, length_singleton]
      omega
    have hitem := Item.overlong n (d.osc ++ [b]) (hbody.snoc hbel hesc) hfull
    rw [append_assoc, append_assoc]
    exact hq.snoc hitem
  | oscEsc =>
    rw [hs] at h
    obtain ⟨q, n, m, hq, hbody, hlen, rfl⟩ := h
    rw [byteStep_of hs (by decide), readByte, hs]
    dsimp only
    have hitem : ∀ c, c ≠ esc →
        Items (q ++ (escapes (n + 1) ++ oscIntro :: d.osc ++ escapes (m + 1)) ++ [c]) := by
      intro c hc
      rw [append_assoc]
      exact hq.snoc (.string n d.osc m c hbody hlen hc)
    by_cases hfinal : b = stFinal
    · rw [if_pos hfinal]
      show Items _
      apply hitem
      rw [hfinal]
      decide
    rw [if_neg hfinal]
    by_cases hesc : b = esc
    · rw [if_pos hesc]
      unfold Shape
      rw [hs]
      refine ⟨q, n, m + 1, hq, hbody, hlen, ?_⟩
      rw [hesc, escapes_succ (m + 1), append_assoc, append_assoc, append_assoc]
    · rw [if_neg hesc]
      exact hitem b hesc

theorem shape_read (p : Bytes) : Shape (read new p).1 p := by
  induction p using reverseRecOn with
  | nil => exact Items.nil
  | append_singleton p b ih =>
    rw [read_append]
    exact shape_step ih b

/-! ## reading items -/

def Ready (d : OscStateDetector) : Prop := d.state = .ground ∨ d.state = .esc

theorem read_escapes (h : Ready d) (n : Nat) :
    read d (escapes (n + 1)) = ({ d with state := .esc }, []) := by
  have hfirst : byteStep d esc = ({ d with state := .esc }, []) := by
    obtain hd | hd := h
    · rw [byteStep, if_pos hd, if_pos rfl]
    · rw [byteStep_of hd (by decide), readByte, hd]
      show (d, []) = _
      rw [← hd]
  induction n with
  | zero =>
    show read d [esc] = _
    rw [read_cons, hfirst]
    rfl
  | succ n ih =>
    rw [escapes_succ, read_append, ih]
    rfl

theorem read_intro (h : Ready d) (n : Nat) (rest : Bytes) :
    read d (escapes (n + 1) ++ oscIntro :: rest) = read { d with state := .osc, osc := [] } rest := by
  rw [read_append, read_escapes h]
  rfl

theorem read_body (hd : d.state = .osc) {body : Bytes} (hbody : IsBody body)
    (hlen : d.osc.length + body.length ≤ oscMax) :
    read d body = ({ d with osc := d.osc ++ body }, []) := by
  induction body generalizing d with
  | nil =>
    rw [append_nil]
    rfl
  | cons b body ih =>
    have hbel : b ≠ bel := by
      rintro rfl
      exact hbody.1 mem_cons_self
    have hesc : b ≠ esc := by
      rintro rfl
      exact hbody.2 mem_cons_self
    rw [length_cons] at hlen
    have hstep : byteStep d b = ({ d with osc := d.osc ++ [b] }, []) := by
      rw [byteStep_of hd (by decide), readByte, hd]
      dsimp only
      rw [if_neg hbel, if_neg hesc, if_pos (by omega), ← hd]
    have hrest : IsBody body :=
      ⟨fun h => hbody.1 (mem_cons_of_mem b h), fun h => hbody.2 (mem_cons_of_mem b h)⟩
    have hroom : (d.osc ++ [b]).length + body.length ≤ oscMax := by
      rw [length_append, length_singleton]
      omega
    rw [read_cons, hstep, ih (d := { d with osc := d.osc ++ [b] }) hd hrest hroom, append_assoc]
    rfl

theorem read_open (h : Ready d) (n : Nat) {body : Bytes} (hbody : IsBody body)
    (hlen : body.length ≤ oscMax) (rest : Bytes) :
    read d (escapes (n + 1) ++ oscIntro :: (body ++ rest)) =
      read { d with state := .osc, osc := body } rest := by
  have hroom : ({ d with state := .osc, osc := [] } : OscStateDetector).osc.length + body.length ≤
      oscMax := by
    show 0 + body.length ≤ oscMax
    omega
  rw [read_intro h, read_append, read_body rfl hbody hroom]
  rfl

theorem read_end (hd : d.state = .osc) (m : Nat) {b : UInt8} (hb : b ≠ esc) :
    (read d (escapes (m + 1) ++ [b])).1.state = .ground := by
  have hescapes : read d (escapes (m + 1)) = ({ d with state := .oscEsc }, []) := by
    have hfirst : byteStep d esc = ({ d with state := .oscEsc }, []) := by
      rw [byteStep_of hd (by decide), readByte, hd]
      rfl
    induction m with
    | zero =>
      show read d [esc] = _
      rw [read_cons, hfirst]
      rfl
    | succ m ih =>
      rw [escapes_succ, read_append, ih]
      rfl
  rw [read_append, hescapes]
  show (byteStep { d with state := .oscEsc } b).1.state = _
  rw [byteStep_of rfl State.noConfusion, readByte]
  dsimp only
  rw [if_neg hb]
  split
  · rfl
  · rfl

theorem read_item (hd : d.state = .ground) {i : Bytes} (hi : Item i) :
    (read d i).1.state = .ground := by
  cases hi with
  | text b hb =>
    show (byteStep d b).1.state = _
    rw [byteStep, if_pos hd, if_neg hb]
    exact hd
  | escape n b hesc hintro =>
    rw [read_append, read_escapes (.inl hd)]
    show (byteStep { d with state := .esc } b).1.state = _
    rw [byteStep_of rfl State.noConfusion, readByte]
    dsimp only
    rw [if_neg hintro, if_neg hesc]
  | bell n body hbody hlen =>
    rw [append_assoc, cons_append, read_open (.inl hd) n hbody hlen]
    rfl
  | string n body m b hbody hlen hb =>
    rw [append_assoc, append_assoc, cons_append, read_open (.inl hd) n hbody hlen]
    exact read_end rfl m hb
  | overlong n body hbody hlen =>
    obtain ⟨front, b, rfl⟩ : ∃ front b, body = front ++ [b] := by
      obtain rfl | ⟨front, b, hb⟩ := body.eq_nil_or_concat
      · cases hlen
      · exact ⟨front, b, hb.trans concat_eq_append⟩
    rw [length_append, length_singleton] at hlen
    have hfront : IsBody front :=
      ⟨fun h => hbody.1 (mem_append_left _ h), fun h => hbody.2 (mem_append_left _ h)⟩
    have hfull : front.length = oscMax := by
      omega
    have hbel : b ≠ bel := by
      rintro rfl
      exact hbody.1 (mem_append_right _ mem_cons_self)
    have hesc : b ≠ esc := by
      rintro rfl
      exact hbody.2 (mem_append_right _ mem_cons_self)
    rw [read_open (.inl hd) n hfront (Nat.le_of_eq hfull)]
    show (byteStep { d with state := .osc, osc := front } b).1.state = _
    rw [byteStep_of rfl State.noConfusion, readByte]
    dsimp only
    rw [if_neg hbel, if_neg hesc, hfull, if_neg (Nat.lt_irrefl oscMax)]

theorem read_items (hd : d.state = .ground) {q : Bytes} (hq : Items q) :
    (read d q).1.state = .ground := by
  obtain ⟨items, hitems, rfl⟩ := hq
  induction items generalizing d with
  | nil => exact hd
  | cons i items ih =>
    rw [forall_mem_cons] at hitems
    rw [flatten_cons, read_append]
    exact ih (read_item hd hitems.1) hitems.2

theorem outsideOsc_iff (p : Bytes) : OutsideOsc p ↔ Ready (read new p).1 := by
  constructor
  · rintro ⟨q, k, hq, rfl⟩
    have hground := read_items (d := new) rfl hq
    rw [read_append]
    cases k with
    | zero => exact .inl hground
    | succ =>
      rw [read_escapes (.inl hground)]
      exact .inr rfl
  intro h
  have hshape := shape_read p
  unfold Shape at hshape
  obtain hs | hs := h
  · rw [hs] at hshape
    exact ⟨p, 0, hshape, (append_nil p).symm⟩
  · rw [hs] at hshape
    obtain ⟨q, n, hq, hp⟩ := hshape
    exact ⟨q, n + 1, hq, hp⟩

/-! ## the frame -/

/-- the frame of a hook -/
structure HookFrame where
  agent : String
  known : agent ∈ defaultAgents
  event : Bytes
  name : String
  valid : fromUtf8 event = some name
  nonempty : 0 < event.length
  short : event.length ≤ 64
  body : IsBody event
  /-- `BEL`, or `ESC \\` -/
  bellEnded : Bool

def HookFrame.notice (f : HookFrame) : Bytes := bytesOf f.agent ++ semicolon :: f.event

def HookFrame.text (f : HookFrame) : Bytes :=
  bytesOf "777" ++ semicolon :: (ccpanesMarker ++ f.notice)

def HookFrame.terminator (f : HookFrame) : Bytes := if f.bellEnded then [bel] else [esc, stFinal]

def HookFrame.bytes (f : HookFrame) : Bytes := esc :: oscIntro :: (f.text ++ f.terminator)

theorem fromUtf8_bytesOf (s : String) : fromUtf8 (bytesOf s) = some s := by
  unfold fromUtf8 bytesOf
  have hdata : (⟨s.toUTF8.data.toList.toArray⟩ : ByteArray) = s.toByteArray := rfl
  rw [hdata, String.fromUTF8?, dif_pos s.isValidUTF8]
  rfl

theorem agents_bytes : ∀ a ∈ defaultAgents,
    semicolon ∉ bytesOf a ∧ IsBody (bytesOf a) ∧ (bytesOf a).length ≤ 8 := by
  unfold IsBody
  decide

theorem IsBody.append {a b : Bytes} (ha : IsBody a) (hb : IsBody b) : IsBody (a ++ b) :=
  ⟨fun h => (mem_append.mp h).elim ha.1 hb.1, fun h => (mem_append.mp h).elim ha.2 hb.2⟩

theorem HookFrame.body_text (f : HookFrame) : IsBody f.text := by
  have hagent := (agents_bytes f.agent f.known).2.1
  have hhead : IsBody (bytesOf "777" ++ semicolon :: ccpanesMarker) := by
    unfold IsBody
    decide
  have hmiddle : IsBody [semicolon] := by
    unfold IsBody
    decide
  have htext : f.text = bytesOf "777" ++ semicolon :: ccpanesMarker ++
      (bytesOf f.agent ++ ([semicolon] ++ f.event)) := by
    unfold HookFrame.text HookFrame.notice
    rw [append_assoc]
    rfl
  rw [htext]
  exact hhead.append (hagent.append (hmiddle.append f.body))

theorem HookFrame.length_text (f : HookFrame) : f.text.length ≤ oscMax := by
  have hagent := (agents_bytes f.agent f.known).2.2
  have hhead : (bytesOf "777").length = 3 := by decide
  have hmarker : ccpanesMarker.length = 15 := by decide
  have hevent := f.short
  unfold HookFrame.text HookFrame.notice
  rw [length_append, length_cons, length_append, length_append, length_cons, hhead, hmarker]
  show _ ≤ 2048
  omega

/-! ## reading the frame -/

theorem findIdx?_append_cons {a : Bytes} (ha : semicolon ∉ a) (rest : Bytes) :
    (a ++ semicolon :: rest).findIdx? (· = semicolon) = some a.length := by
  induction a with
  | nil => rfl
  | cons b a ih =>
    rw [mem_cons, not_or] at ha
    rw [cons_append, findIdx?_cons, ih ha.2]
    simp [Ne.symm ha.1]

theorem take_left_cons (a : Bytes) (rest : Bytes) :
    (a ++ semicolon :: rest).take a.length = a ∧
      (a ++ semicolon :: rest).drop (a.length + 1) = rest := by
  refine ⟨take_left, ?_⟩
  rw [← drop_drop, drop_left]
  rfl

theorem after_append (start rest : Bytes) : after start (start ++ rest) = some rest := by
  unfold after
  rw [if_pos (List.isPrefixOf_iff_prefix.mpr (prefix_append start rest)), drop_left]

theorem handleOsc777_notice (hd : d.agents = defaultAgents) (f : HookFrame) :
    handleOsc777 d (ccpanesMarker ++ f.notice) = ({ d with armed := true }, [.event f.name]) := by
  have hagent := (agents_bytes f.agent f.known).1
  have hcut := take_left_cons (bytesOf f.agent) f.event
  have hlen : ¬(f.event.length = 0 ∨ 64 < f.event.length) := by
    have := f.nonempty
    have := f.short
    omega
  unfold handleOsc777
  rw [after_append]
  dsimp only
  unfold HookFrame.notice
  rw [findIdx?_append_cons hagent]
  dsimp only
  rw [hcut.1, hcut.2, fromUtf8_bytesOf]
  dsimp only
  rw [hd, if_neg (not_not_intro f.known), f.valid]
  dsimp only
  rw [if_neg hlen]

theorem finishOsc_text (hd : d.agents = defaultAgents) {f : HookFrame} (htext : d.osc = f.text) :
    finishOsc d = ({ d with osc := [], armed := true }, [.event f.name]) := by
  have hcut := take_left_cons (bytesOf "777") (ccpanesMarker ++ f.notice)
  have hfind : f.text.findIdx? (· = semicolon) = some (bytesOf "777").length :=
    findIdx?_append_cons (by decide) _
  unfold finishOsc
  rw [htext]
  dsimp only
  rw [hfind]
  dsimp only
  unfold HookFrame.text
  rw [if_neg (by rw [hcut.1]; decide), if_pos hcut.1, hcut.2]
  exact handleOsc777_notice (d := { d with osc := [] }) hd f

theorem handleOsc777_agents (d : OscStateDetector) (pt : Bytes) :
    (handleOsc777 d pt).1.agents = d.agents := by
  unfold handleOsc777
  cases after ccpanesMarker pt with
  | none => rfl
  | some tail =>
    dsimp only
    cases tail.findIdx? (· = semicolon) with
    | none => rfl
    | some i =>
      dsimp only
      cases fromUtf8 (tail.take i) with
      | none => rfl
      | some =>
        cases fromUtf8 (tail.drop (i + 1)) with
        | none =>
          dsimp only
          split_ifs <;> rfl
        | some =>
          dsimp only
          split_ifs <;> rfl

theorem handleOsc133_agents (d : OscStateDetector) (pt : Bytes) :
    (handleOsc133 d pt).1.agents = d.agents := by
  unfold handleOsc133
  cases matchAgent d.agents ((after (bytesOf "C;") pt).getD []) with
  | none =>
    dsimp only
    split_ifs <;> rfl
  | some =>
    dsimp only
    split_ifs <;> rfl

theorem finishOsc_agents (d : OscStateDetector) : (finishOsc d).1.agents = d.agents := by
  unfold finishOsc
  dsimp only
  split_ifs
  · exact handleOsc133_agents _ _
  · exact handleOsc777_agents _ _
  · rfl

theorem byteStep_agents (d : OscStateDetector) (b : UInt8) : (byteStep d b).1.agents = d.agents := by
  have hfinish := finishOsc_agents d
  cases hs : d.state with
  | ground =>
    rw [byteStep, if_pos hs]
    split_ifs <;> rfl
  | esc =>
    rw [byteStep_of hs (by decide), readByte, hs]
    dsimp only
    split_ifs <;> rfl
  | osc =>
    rw [byteStep_of hs (by decide), readByte, hs]
    dsimp only
    split_ifs
    · exact hfinish
    · rfl
    · rfl
    · rfl
  | oscEsc =>
    rw [byteStep_of hs (by decide), readByte, hs]
    dsimp only
    split_ifs
    · exact hfinish
    · rfl
    · rfl

theorem read_agents (d : OscStateDetector) (input : Bytes) :
    (read d input).1.agents = d.agents := by
  induction input generalizing d with
  | nil => rfl
  | cons b rest ih =>
    rw [read_cons, ih]
    exact byteStep_agents d b

/-- **A frame outside an OSC is reported.** -/
theorem read_frame (h : Ready d) (hd : d.agents = defaultAgents) (f : HookFrame) :
    (read d f.bytes).2 = [.event f.name] := by
  have hopen := read_open h 0 f.body_text f.length_text f.terminator
  have hbytes : f.bytes = escapes (0 + 1) ++ oscIntro :: (f.text ++ f.terminator) := rfl
  rw [hbytes, hopen]
  have hfinish : ∀ s, (finishOsc { d with state := s, osc := f.text }).2 = [.event f.name] := by
    intro s
    rw [finishOsc_text (d := { d with state := s, osc := f.text }) hd rfl]
  unfold HookFrame.terminator
  cases f.bellEnded with
  | true => exact congrArg (· ++ []) (hfinish .osc)
  | false => exact congrArg (· ++ []) (hfinish .oscEsc)

/-- **A frame inside an OSC is lost.** -/
theorem read_lost (h : d.state = .osc ∨ d.state = .oscEsc) (f : HookFrame) :
    (read d f.bytes).2 = [] := by
  have hesc : byteStep d esc = ({ d with state := .oscEsc }, []) := by
    obtain hd | hd := h
    · rw [byteStep_of hd (by decide), readByte, hd]
      rfl
    · rw [byteStep_of hd (by decide), readByte, hd]
      show (d, []) = _
      rw [← hd]
  have hintro : byteStep { d with state := .oscEsc } oscIntro =
      ({ d with osc := [], state := .ground }, []) := rfl
  have hrest : (read { d with osc := [], state := .ground } (f.text ++ f.terminator)).2 = [] := by
    rw [read_append, read_ground rfl f.body_text.2]
    unfold HookFrame.terminator
    cases f.bellEnded with
    | true => rfl
    | false => rfl
  show (read d (esc :: oscIntro :: (f.text ++ f.terminator))).2 = []
  rw [read_cons, hesc, read_cons, hintro, hrest]
  rfl

structure Chunks (stream : Bytes) where
  pieces : List Bytes
  flatten_eq : pieces.flatten = stream

def signals (pieces : List Bytes) : List OscSignal := (Transducer.feed process new pieces).2

theorem signals_eq {stream : Bytes} (c : Chunks stream) :
    signals c.pieces = (read new stream).2 := by
  unfold signals
  rw [process_pieces, c.flatten_eq, process_eq]

/-- **The frame is reported, once, iff the bytes before it do not end inside an OSC; the cuts never
make a difference.** -/
theorem detector_iff (p : Bytes) :
    (∀ c : Chunks p, signals c.pieces = (process new p).2) ∧
      ∀ (f : HookFrame) (c : Chunks (p ++ f.bytes)),
        signals c.pieces = (process new p).2 ++ [.event f.name] ↔ OutsideOsc p := by
  refine ⟨?_, ?_⟩
  · intro c
    rw [signals_eq, process_eq]
  intro f c
  rw [signals_eq, process_eq, read_append, append_cancel_left_eq, outsideOsc_iff]
  have hagents : (read new p).1.agents = defaultAgents := read_agents new p
  constructor
  · intro hreported
    by_contra hready
    have hinside : (read new p).1.state = .osc ∨ (read new p).1.state = .oscEsc := by
      unfold Ready at hready
      cases hs : (read new p).1.state with
      | ground => exact absurd (.inl hs) hready
      | esc => exact absurd (.inr hs) hready
      | osc => exact .inl rfl
      | oscEsc => exact .inr rfl
    rw [read_lost hinside] at hreported
    cases hreported
  · intro hready
    exact read_frame hready hagents f

def openTitle : Bytes := [esc, oscIntro] ++ bytesOf "0;title"

def turnEnd : HookFrame where
  agent := "claude"
  known := by decide
  event := bytesOf "turn-end"
  name := "turn-end"
  valid := fromUtf8_bytesOf "turn-end"
  nonempty := by decide
  short := by decide
  body := by unfold IsBody; decide
  bellEnded := false

theorem turnEnd_lost : ¬ ∀ (p : Bytes) (f : HookFrame) (c : Chunks (p ++ f.bytes)),
    signals c.pieces = (process new p).2 ++ [.event f.name] := by
  intro h
  have hlost : signals [openTitle, turnEnd.bytes] = [] := by
    unfold signals
    rw [process_pieces, process_eq]
    decide
  have hreported := h openTitle turnEnd ⟨[openTitle, turnEnd.bytes], rfl⟩
  rw [hlost] at hreported
  exact cons_ne_nil _ _ (append_eq_nil_iff.mp hreported.symm).2

end CcPanes.OscDetect

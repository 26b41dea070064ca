import CcPanes.Daemon.EventBridge
import CcPanes.Foundation.Utf8

/-!
# The output cursor over one output

The windows of `stream` and `recovery` overlap in any way; the cursor hands on from each what it has
not handed on before.
-/

namespace CcPanes.EventBridge.OutputCursor
open List Utf8 Option

inductive Call where
  | reset
  | stream (endSeq : Nat) (data : Text)
  | recovery (epoch endSeq : Nat) (data : Text)

/-- what a call returns, `none` for `reset`, and the cursor behind it -/
def step (c : OutputCursor) : Call → OutputCursor × Option CursorDelta
  | .reset => (reset, none)
  | .stream endSeq data => (c.stream endSeq data.bytes).map id some
  | .recovery epoch endSeq data => (c.recovery epoch endSeq data.bytes).map id some

def after (c : OutputCursor) (calls : List Call) : OutputCursor :=
  calls.foldl (fun c call => (c.step call).1) c

def answers (c : OutputCursor) : List Call → List (Option CursorDelta)
  | [] => []
  | call :: calls => (c.step call).2 :: answers (c.step call).1 calls

def emitted (answers : List (Option CursorDelta)) : Bytes :=
  answers.flatMap fun
    | some (.data d) => d
    | _ => []

/-! ## windows of an output -/

variable {S data x : Bytes} {c : OutputCursor} {epoch endSeq p : Nat}

/-- `x = S[start..stop]` -/
structure Slice (S : Bytes) (start stop : Nat) (x : Bytes) : Prop where
  le : start ≤ stop
  le_length : stop ≤ S.length
  eq : x = (S.take stop).drop start

/-- `data = S[endSeq - data.len()..endSeq]`, on character boundaries -/
structure Window (S : Bytes) (endSeq : Nat) (data : Bytes) : Prop where
  length_le : data.length ≤ endSeq
  slice : Slice S (endSeq - data.length) endSeq data
  boundary : isCharBoundary S endSeq

def Call.FromOutput (S : Bytes) : Call → Prop
  | .reset => True
  | .stream endSeq data => Window S endSeq data.bytes
  | .recovery _ endSeq data => Window S endSeq data.bytes

/-- when `recovery` asks for a resync whatever its window holds -/
def Forced (c : OutputCursor) (epoch endSeq : Nat) : Prop :=
  c.endSeq = none ∨ (∃ previous, c.epoch = some previous ∧ previous ≠ epoch) ∨
    ∃ p, c.endSeq = some p ∧ endSeq < p

/-- the answer to a window with the cursor at `position`; `forced` calls ask for a resync -/
structure Exact (S : Bytes) (position : Option Nat) (endSeq : Nat) (data : Bytes) (forced : Prop)
    (delta : CursorDelta) : Prop where
  data_slice : ∀ p x, position = some p → delta = .data x → p < endSeq ∧ Slice S p endSeq x
  unchanged_le : delta = .unchanged → ∃ p, position = some p ∧ endSeq ≤ p
  resync_iff : delta = .resync ↔ (∃ p, position = some p ∧ p < endSeq - data.length) ∨ forced

def Call.Exact (S : Bytes) (c : OutputCursor) (answer : Option CursorDelta) : Call → Prop
  | .reset => answer = none
  | .stream endSeq data => ∃ delta, answer = some delta ∧
      OutputCursor.Exact S c.endSeq endSeq data.bytes False delta
  | .recovery epoch endSeq data => ∃ delta, answer = some delta ∧
      OutputCursor.Exact S c.endSeq endSeq data.bytes (c.Forced epoch endSeq) delta

def OnBoundary (S : Bytes) (c : OutputCursor) : Prop :=
  ∀ p, c.endSeq = some p → p ≤ S.length ∧ isCharBoundary S p

theorem Slice.append {i j k : Nat} {y : Bytes} (hx : Slice S i j x) (hy : Slice S j k y) :
    Slice S i k (x ++ y) := by
  refine ⟨hx.le.trans hy.le, hy.le_length, ?_⟩
  have hcut : S.take k = S.take j ++ (S.take k).drop j := by
    conv_lhs => rw [← take_append_drop j (S.take k)]
    rw [take_take, Nat.min_eq_left hy.le]
  rw [hcut, drop_append_of_le_length, ← hx.eq, ← hy.eq]
  rw [length_take, Nat.min_eq_left hx.le_length]
  exact hx.le

theorem Window.onBoundary (h : Window S endSeq data) (epoch : Option Nat) :
    OnBoundary S ⟨epoch, some endSeq⟩ := by
  intro p hp
  cases hp
  exact ⟨h.slice.le_length, h.boundary⟩

/-- **A window that reaches back to a boundary is cut there.** -/
theorem Window.cut (h : Window S endSeq data) (hp : isCharBoundary S p)
    (hreach : ¬ p < endSeq - data.length) (hlt : p < endSeq) :
    ∃ b x, getFrom data (p - (endSeq - data.length)) = some (b :: x) ∧
      Slice S p endSeq (b :: x) := by
  have hlen := h.length_le
  have hle := h.slice.le_length
  obtain ⟨i, hi⟩ : ∃ i, p = endSeq - data.length + i :=
    Nat.exists_eq_add_of_le (Nat.le_of_not_lt hreach)
  have hbyte : data[i]? = S[p]? := by
    have hget : data[i]? = ((S.take endSeq).drop (endSeq - data.length))[i]? :=
      congrArg (·[i]?) h.slice.eq
    rw [hget, getElem?_drop, ← hi, getElem?_take_of_lt hlt]
  have hboundary : isCharBoundary data i := by
    unfold isCharBoundary at hp ⊢
    simp only [Bool.or_eq_true, beq_iff_eq] at hp ⊢
    by_cases hstart : i = 0
    · exact .inl (.inl hstart)
    · rw [hbyte]
      exact .inr (hp.resolve_left (by omega))
  have hslice : data.drop i = (S.take endSeq).drop p := by
    rw [hi, ← drop_drop]
    exact congrArg (drop i) h.slice.eq
  rw [show p - (endSeq - data.length) = i by omega, getFrom, if_pos hboundary]
  cases hdrop : data.drop i with
  | nil =>
    rw [drop_eq_nil_iff] at hdrop
    omega
  | cons b x => exact ⟨b, x, rfl, Nat.le_of_lt hlt, hle, hdrop.symm.trans hslice⟩

/-! ## one call -/

theorem stream_of_le (hp : c.endSeq = some p) (hle : endSeq ≤ p) :
    c.stream endSeq data = (c, .unchanged) := by
  unfold stream
  rw [hp, if_pos (by simpa using hle)]

theorem stream_of_unset (hunset : c.endSeq = none) (h : data.length ≤ endSeq) :
    c.stream endSeq data = ({ c with endSeq := some endSeq }, .data data) := by
  unfold stream
  rw [hunset]
  exact if_neg (Nat.not_lt.mpr h)

theorem stream_of_gap (hp : c.endSeq = some p) (hgap : p < endSeq - data.length) :
    c.stream endSeq data = ({ c with endSeq := some endSeq }, .resync) := by
  unfold stream
  rw [hp, if_neg (by simp; omega)]
  dsimp only
  rw [if_neg (by omega), if_pos hgap]

theorem stream_of_reach (hwindow : Window S endSeq data) (hp : c.endSeq = some p)
    (hboundary : isCharBoundary S p) (hreach : ¬ p < endSeq - data.length) (hlt : p < endSeq) :
    ∃ x, Slice S p endSeq x ∧
      c.stream endSeq data = ({ c with endSeq := some endSeq }, .data x) := by
  obtain ⟨b, x, hx, hslice⟩ := hwindow.cut hboundary hreach hlt
  refine ⟨b :: x, hslice, ?_⟩
  unfold stream
  rw [hp, if_neg (by simpa using hlt)]
  dsimp only
  rw [if_neg (Nat.not_lt.mpr hwindow.length_le), if_neg hreach, hx]

def Continues (answer : Option CursorDelta) : Prop := answer ≠ none ∧ answer ≠ some .resync

/-- `x` leads from the position of one cursor to that of another -/
def Leads (S : Bytes) (c c' : OutputCursor) (x : Bytes) : Prop :=
  ∃ start stop, Slice S start stop x ∧ (∀ p, c.endSeq = some p → p = start) ∧
    ∀ p, c'.endSeq = some p → p = stop

theorem Leads.refl (hboundary : OnBoundary S c) : Leads S c c [] := by
  cases hp : c.endSeq with
  | none => exact ⟨0, 0, ⟨Nat.le_refl 0, Nat.zero_le _, by simp⟩, by simp [hp]⟩
  | some p =>
    have hle := (hboundary p hp).1
    exact ⟨p, p, ⟨Nat.le_refl p, hle, by simp⟩, by simp [hp]⟩

/-- what one answer says, and what it does to the position -/
structure Sound (S : Bytes) (c : OutputCursor) (endSeq : Nat) (data : Bytes) (forced : Prop)
    (result : OutputCursor × CursorDelta) : Prop where
  exact : Exact S c.endSeq endSeq data forced result.2
  leads : result.2 ≠ .resync →
    result.1.endSeq ≠ none ∧ Leads S c result.1 (emitted [some result.2])
  boundary : OnBoundary S result.1

theorem stream_sound (hwindow : Window S endSeq data) (hboundary : OnBoundary S c) :
    Sound S c endSeq data False (c.stream endSeq data) := by
  have hmoved := hwindow.onBoundary c.epoch
  cases hp : c.endSeq with
  | none =>
    rw [stream_of_unset hp hwindow.length_le]
    refine ⟨?_, fun _ => ⟨nofun, endSeq - data.length, endSeq, ?_, ?_, ?_⟩, hmoved⟩
    · rw [hp]
      exact ⟨nofun, nofun, ⟨nofun, fun h => by simp at h⟩⟩
    · simpa [emitted] using hwindow.slice
    · simp [hp]
    · exact fun q hq => (some.inj hq).symm
  | some p =>
    have hat {q : Nat} (h : c.endSeq = some q) : q = p := some.inj (h.symm.trans hp)
    by_cases hle : endSeq ≤ p
    · rw [stream_of_le hp hle]
      refine ⟨⟨nofun, fun _ => ⟨p, hp, hle⟩, ⟨nofun, ?_⟩⟩, fun _ => ?_, hboundary⟩
      · rintro (⟨q, hq, hgap⟩ | h)
        · rw [hat hq] at hgap
          omega
        · exact h.elim
      · exact ⟨by simp [hp], Leads.refl hboundary⟩
    by_cases hgap : p < endSeq - data.length
    · rw [stream_of_gap hp hgap]
      exact ⟨⟨nofun, nofun, ⟨fun _ => .inl ⟨p, hp, hgap⟩, fun _ => rfl⟩⟩, absurd rfl, hmoved⟩
    have hlt := Nat.lt_of_not_le hle
    obtain ⟨x, hslice, hx⟩ := stream_of_reach hwindow hp (hboundary p hp).2 hgap hlt
    rw [hx]
    refine ⟨⟨fun q y hq hy => ?_, nofun, ⟨nofun, ?_⟩⟩, fun _ => ⟨nofun, p, endSeq, ?_, ?_, ?_⟩,
      hmoved⟩
    · obtain rfl := hat hq
      obtain rfl := CursorDelta.data.inj hy
      exact ⟨hlt, hslice⟩
    · rintro (⟨q, hq, hback⟩ | h)
      · exact absurd (hat hq ▸ hback) hgap
      · exact h.elim
    · simpa [emitted] using hslice
    · exact fun q hq => hat hq
    · exact fun q hq => (some.inj hq).symm

theorem recovery_of_forced (h : c.Forced epoch endSeq) (data : Bytes) :
    c.recovery epoch endSeq data = (⟨some epoch, some endSeq⟩, .resync) := by
  unfold recovery
  rcases h with h | ⟨previous, h, hne⟩ | ⟨p, h, hlt⟩
  · simp [h]
  · simp [h, hne]
  · simp [h, hlt]

theorem recovery_of_not_forced (h : ¬ c.Forced epoch endSeq) (data : Bytes) :
    c.recovery epoch endSeq data =
      ({ c with epoch := some epoch } : OutputCursor).stream endSeq data := by
  have hset : c.endSeq ≠ none := fun hnone => h (.inl hnone)
  have hepoch : c.epoch.any (· ≠ epoch) = false := by
    rw [Option.any_eq_false]
    intro previous hprevious
    simpa using fun hne => h (.inr (.inl ⟨previous, hprevious, hne⟩))
  have hback : c.endSeq.any (endSeq < ·) = false := by
    rw [Option.any_eq_false]
    intro p hp
    simpa using fun hlt => h (.inr (.inr ⟨p, hp, hlt⟩))
  unfold recovery
  dsimp only
  rw [hepoch, hback]
  simp [hset]

theorem recovery_sound (hwindow : Window S endSeq data) (hboundary : OnBoundary S c) (epoch : Nat) :
    Sound S c endSeq data (c.Forced epoch endSeq) (c.recovery epoch endSeq data) := by
  by_cases h : c.Forced epoch endSeq
  · rw [recovery_of_forced h]
    exact ⟨⟨nofun, nofun, ⟨fun _ => .inr h, fun _ => rfl⟩⟩, absurd rfl,
      hwindow.onBoundary (some epoch)⟩
  rw [recovery_of_not_forced h]
  obtain ⟨hexact, hleads, hnext⟩ :=
    stream_sound (c := { c with epoch := some epoch }) hwindow hboundary
  refine ⟨⟨hexact.data_slice, hexact.unchanged_le, hexact.resync_iff.trans ?_⟩, hleads, hnext⟩
  exact or_congr_right ⟨False.elim, h⟩

theorem step_sound {call : Call} (hcall : call.FromOutput S) (hboundary : OnBoundary S c) :
    call.Exact S c (c.step call).2 ∧
      (Continues (c.step call).2 →
        (c.step call).1.endSeq ≠ none ∧ Leads S c (c.step call).1 (emitted [(c.step call).2])) ∧
      OnBoundary S (c.step call).1 := by
  cases call with
  | reset => exact ⟨rfl, fun h => absurd rfl h.1, nofun⟩
  | stream endSeq data =>
    have h := stream_sound hcall hboundary
    exact ⟨⟨_, rfl, h.exact⟩, fun hquiet => h.leads fun hr => hquiet.2 (congrArg some hr),
      h.boundary⟩
  | recovery epoch endSeq data =>
    have h := recovery_sound hcall hboundary epoch
    exact ⟨⟨_, rfl, h.exact⟩, fun hquiet => h.leads fun hr => hquiet.2 (congrArg some hr),
      h.boundary⟩

theorem after_boundary {calls : List Call} (hcalls : ∀ call ∈ calls, call.FromOutput S)
    (hboundary : OnBoundary S c) : OnBoundary S (c.after calls) := by
  induction calls generalizing c with
  | nil => exact hboundary
  | cons call calls ih =>
    rw [forall_mem_cons] at hcalls
    exact ih hcalls.2 (step_sound hcalls.1 hboundary).2.2

theorem quiet_leads {calls : List Call} (hcalls : ∀ call ∈ calls, call.FromOutput S)
    (hboundary : OnBoundary S c) (hquiet : ∀ answer ∈ answers c calls, Continues answer) :
    Leads S c (c.after calls) (emitted (answers c calls)) := by
  induction calls generalizing c with
  | nil => exact Leads.refl hboundary
  | cons call calls ih =>
    rw [forall_mem_cons] at hcalls
    rw [answers, forall_mem_cons] at hquiet
    obtain ⟨-, hstep, hnext⟩ := step_sound hcalls.1 hboundary
    obtain ⟨hset, start, middle, hx, hstart, hmiddle⟩ := hstep hquiet.1
    obtain ⟨middle', stop, hy, hmiddle', hstop⟩ := ih hcalls.2 hnext hquiet.2
    obtain ⟨p, hp⟩ := ne_none_iff_exists'.mp hset
    obtain rfl := (hmiddle p hp).symm.trans (hmiddle' p hp)
    refine ⟨start, stop, ?_, hstart, hstop⟩
    have happend := hx.append hy
    unfold emitted at happend ⊢
    rw [answers, flatMap_cons]
    simpa using happend

theorem continuation_of_sequence {s : Bytes} (h : Sequence s) {i : Nat} {b : UInt8}
    (hb : s[i + 1]? = some b) : 0x80 ≤ b.toNat ∧ b.toNat ≤ 0xbf := by
  match s, h with
  | [_], _ => simp at hb
  | [_, _], ⟨_, h2⟩ =>
    obtain ⟨rfl, rfl⟩ : i = 0 ∧ _ = b := by simpa [getElem?_cons] using hb
    exact secondFits_continuation h2
  | [_, _, _], ⟨_, h2, h3⟩ =>
    match i, hb with
    | 0, hb => exact some.inj hb ▸ secondFits_continuation h2
    | 1, hb => exact some.inj hb ▸ isContinuation_iff.mp h3
  | [_, _, _, _], ⟨_, h2, h3, h4⟩ =>
    match i, hb with
    | 0, hb => exact some.inj hb ▸ secondFits_continuation h2
    | 1, hb => exact some.inj hb ▸ isContinuation_iff.mp h3
    | 2, hb => exact some.inj hb ▸ isContinuation_iff.mp h4

theorem isUtf8_drop {cs : List Char} {i : Nat} (h : isCharBoundary (encode cs) i) :
    IsUtf8 ((encode cs).drop i) := by
  induction cs generalizing i with
  | nil => exact ⟨[], drop_nil⟩
  | cons d cs ih =>
    by_cases hi : i = 0
    · subst hi
      exact ⟨d :: cs, drop_zero⟩
    rw [encode_cons] at h ⊢
    have hseq := sequence_encodeChar d
    generalize String.utf8EncodeChar d = e at h hseq ⊢
    unfold isCharBoundary at h ih
    simp only [Bool.or_eq_true, beq_iff_eq, length_append] at h ih
    by_cases hin : i < e.length
    · -- inside a character
      obtain ⟨j, rfl⟩ := Nat.exists_eq_succ_of_ne_zero hi
      have hbyte := h.resolve_left (by omega)
      rw [getElem?_append_left hin, getElem?_eq_getElem hin, any_some, Bool.or_eq_true,
        decide_eq_true_eq, decide_eq_true_eq, UInt8.lt_iff_toNat_lt, UInt8.le_iff_toNat_le] at hbyte
      have hrange := continuation_of_sequence hseq (getElem?_eq_getElem hin)
      have h80 : (0x80 : UInt8).toNat = 0x80 := rfl
      have hc0 : (0xc0 : UInt8).toNat = 0xc0 := rfl
      omega
    · rw [drop_append, drop_of_length_le (Nat.le_of_not_lt hin)]
      refine ih ?_
      rw [getElem?_append_right (Nat.le_of_not_lt hin)] at h
      exact h.imp_left fun h => .inr (by omega)

theorem stream_isUtf8 (hdata : IsUtf8 data) (h : (c.stream endSeq data).2 = .data x) :
    IsUtf8 x := by
  unfold stream at h
  split_ifs at h
  dsimp only at h
  repeat' split at h
  all_goals cases h
  · exact hdata
  next hget =>
  obtain ⟨cs, rfl⟩ := hdata
  unfold getFrom at hget
  split_ifs at hget with hboundary
  cases hget
  exact isUtf8_drop hboundary

theorem recovery_isUtf8 (hdata : IsUtf8 data) (h : (c.recovery epoch endSeq data).2 = .data x) :
    IsUtf8 x := by
  by_cases hforced : c.Forced epoch endSeq
  · rw [recovery_of_forced hforced] at h
    cases h
  · rw [recovery_of_not_forced hforced] at h
    exact stream_isUtf8 hdata h

/-- **The cursor is exact.** Over the windows of one output, in any order, every call answers with
what the output holds behind the cursor, and what is handed on without a resync in between is one
slice of it.  What any call hands on is UTF-8. -/
theorem output_cursor_exact (S : Text) :
    (∀ calls : List Call, (∀ call ∈ calls, call.FromOutput S.bytes) →
      (∀ call : Call, call.FromOutput S.bytes →
        call.Exact S.bytes (after reset calls) ((after reset calls).step call).2) ∧
      ∀ next : List Call, (∀ call ∈ next, call.FromOutput S.bytes) →
        (∀ answer ∈ answers (after reset calls) next, Continues answer) →
        Leads S.bytes (after reset calls) (after reset (calls ++ next))
          (emitted (answers (after reset calls) next))) ∧
    ∀ (c : OutputCursor) (epoch endSeq : Nat) (data : Text) (x : Bytes),
      (c.stream endSeq data.bytes).2 = .data x ∨ (c.recovery epoch endSeq data.bytes).2 = .data x →
      IsUtf8 x := by
  refine ⟨fun calls hcalls => ?_, fun c epoch endSeq data x h => ?_⟩
  · have hboundary : OnBoundary S.bytes (after reset calls) := after_boundary hcalls nofun
    refine ⟨fun call hcall => (step_sound hcall hboundary).1, fun next hnext hquiet => ?_⟩
    have happend : after reset (calls ++ next) = (after reset calls).after next := foldl_append
    rw [happend]
    exact quiet_leads hnext hboundary hquiet
  · exact h.elim (stream_isUtf8 data.isUtf8) (recovery_isUtf8 data.isUtf8)

/-- of a frame that overlaps a recovery window, what is new is handed on -/
theorem overlapping_frame_cut :
    Leads (encode ['中', '文', 'a']) ⟨some 1, some 6⟩ ⟨some 1, some 7⟩ [0x61] := by
  refine ((output_cursor_exact ⟨_, ['中', '文', 'a'], rfl⟩).1
    [.recovery 1 6 ⟨encode ['中', '文'], _, rfl⟩] ?_).2 [.stream 7 ⟨encode ['文', 'a'], _, rfl⟩] ?_ ?_
  · rw [forall_mem_singleton]
    exact ⟨by decide, ⟨by decide, by decide, by decide⟩, by decide⟩
  · rw [forall_mem_singleton]
    exact ⟨by decide, ⟨by decide, by decide, by decide⟩, by decide⟩
  · show ∀ answer ∈ [some (CursorDelta.data [0x61])], Continues answer
    rw [forall_mem_singleton]
    exact ⟨nofun, nofun⟩

end CcPanes.EventBridge.OutputCursor

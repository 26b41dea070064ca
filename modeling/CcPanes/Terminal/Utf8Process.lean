import CcPanes.Foundation.Transducer
import CcPanes.Foundation.Utf8

/-!
# Decoding what is read from a terminal

A read may end inside a character.  The bytes of such a character wait for the next read; bytes that are
no UTF-8 are taken for GBK, which `encoding_rs` decodes.
-/

namespace CcPanes.TerminalDecoding

open Transducer Utf8 List

section
variable (gbk : List UInt8 → Text)

def decodeTerminalOutput (bytes : List UInt8) : Text :=
  match fromUtf8 bytes with
  | .ok output => output
  | .error _ => gbk bytes

/-- one read: the carry afterwards, and what is returned -/
def utf8SafeProcess (carry buf : List UInt8) : List UInt8 × Option Text :=
  let combined := carry ++ buf
  if combined = [] then ([], none)
  else
    match fromUtf8 combined with
    | .ok output => ([], some output)
    | .error error =>
      match error.errorLen with
      | none =>
        (combined.drop error.validUpTo,
          if error.validUpTo = 0 then none
          else some (decodeTerminalOutput gbk (combined.take error.validUpTo)))
      | some _ => ([], some (decodeTerminalOutput gbk combined))

/-- the loop that reads: the carry, and the texts that came out -/
def process (carry buf : List UInt8) : List UInt8 × List Text :=
  ((utf8SafeProcess gbk carry buf).1, (utf8SafeProcess gbk carry buf).2.toList)

end

def IsCut (p : List UInt8) : Prop :=
  ∃ (c : Char) (q : List UInt8), q ≠ [] ∧ String.utf8EncodeChar c = p ++ q

theorem isCut_nil : IsCut [] :=
  ⟨'a', String.utf8EncodeChar 'a', by decide, rfl⟩

section
variable (gbk : List UInt8 → Text)

theorem decode_of_isUtf8 {x : List UInt8} (h : IsUtf8 x) :
    (decodeTerminalOutput gbk x).bytes = x := by
  unfold decodeTerminalOutput
  rw [fromUtf8_of_isUtf8 h]

/-! ### what one read does -/

theorem process_ok {carry buf : List UInt8} (h : IsUtf8 (carry ++ buf)) (hne : carry ++ buf ≠ []) :
    process gbk carry buf = ([], [decodeTerminalOutput gbk (carry ++ buf)]) := by
  unfold process utf8SafeProcess decodeTerminalOutput
  dsimp only
  rw [if_neg hne, fromUtf8_of_isUtf8 h]
  rfl

theorem process_invalid {carry buf : List UInt8} (hne : carry ++ buf ≠ []) {pos n : Nat}
    (h : firstError 0 0 (carry ++ buf) = some ⟨pos, some n⟩) :
    process gbk carry buf = ([], [decodeTerminalOutput gbk (carry ++ buf)]) := by
  unfold process utf8SafeProcess
  dsimp only
  rw [if_neg hne, fromUtf8_of_error h]
  rfl

theorem process_cut {carry buf x p : List UInt8} (hx : carry ++ buf = x ++ p) (hp : p ≠ [])
    (h : firstError 0 0 (carry ++ buf) = some ⟨x.length, none⟩) :
    process gbk carry buf = (p, if x = [] then [] else [decodeTerminalOutput gbk x]) := by
  have hne : carry ++ buf ≠ [] := by
    rw [hx]
    exact fun hnil => hp (append_eq_nil_iff.mp hnil).2
  unfold process utf8SafeProcess
  dsimp only
  rw [if_neg hne, fromUtf8_of_error h]
  dsimp only
  rw [hx, drop_left, take_left]
  by_cases hnil : x = []
  · subst hnil
    rfl
  · rw [if_neg fun hzero => hnil (length_eq_zero_iff.mp hzero), if_neg hnil]
    rfl

theorem process_text {carry buf rest : List UInt8} (h : IsUtf8 (carry ++ buf ++ rest)) :
    (process gbk carry buf).2.flatMap Text.bytes ++ (process gbk carry buf).1 = carry ++ buf ∧
      IsCut (process gbk carry buf).1 ∧ IsUtf8 ((process gbk carry buf).1 ++ rest) := by
  obtain ⟨cs, hcs⟩ := h
  obtain ⟨ds, p, hx, hrest, ⟨rfl, -⟩ | ⟨⟨c, q, hp, hq, hc⟩, herror⟩⟩ := firstError_prefix cs hcs 0
  · rw [append_nil] at hx
    by_cases hne : carry ++ buf = []
    · obtain ⟨rfl, rfl⟩ := append_eq_nil_iff.mp hne
      exact ⟨rfl, isCut_nil, hrest⟩
    · rw [process_ok gbk ⟨ds, hx⟩ hne]
      refine ⟨?_, isCut_nil, hrest⟩
      rw [append_nil, flatMap_singleton, decode_of_isUtf8 gbk ⟨ds, hx⟩]
  rw [Nat.zero_add] at herror
  rw [process_cut gbk hx hp herror]
  refine ⟨?_, ⟨c, q, hq, hc⟩, hrest⟩
  dsimp only
  split
  · next hnil =>
    rw [hx, hnil]
    rfl
  · rw [flatMap_singleton, decode_of_isUtf8 gbk ⟨ds, rfl⟩, hx]

theorem process_segment (carry buf : List UInt8) :
    ∃ segments : List (List UInt8),
      (process gbk carry buf).2 = segments.map (decodeTerminalOutput gbk) ∧
      segments.flatten ++ (process gbk carry buf).1 = carry ++ buf ∧
      (process gbk carry buf).1.length ≤ 3 := by
  by_cases hne : carry ++ buf = []
  · obtain ⟨rfl, rfl⟩ := append_eq_nil_iff.mp hne
    exact ⟨[], rfl, rfl, Nat.zero_le 3⟩
  obtain ⟨ds, p, hx, ⟨rfl, -⟩ | ⟨hp, errorLen, herror, hshort⟩⟩ := firstError_spec (carry ++ buf) 0
  · rw [append_nil] at hx
    rw [process_ok gbk ⟨ds, hx⟩ hne]
    exact ⟨[carry ++ buf], rfl, by simp, Nat.zero_le 3⟩
  cases errorLen with
  | some n =>
    rw [process_invalid gbk hne herror]
    exact ⟨[carry ++ buf], rfl, by simp, Nat.zero_le 3⟩
  | none =>
    rw [Nat.zero_add] at herror
    rw [process_cut gbk hx hp herror]
    dsimp only
    split
    · next hnil =>
      rw [hx, hnil]
      exact ⟨[], rfl, rfl, hshort rfl⟩
    · rw [hx]
      exact ⟨[encode ds], rfl, by simp, hshort rfl⟩

theorem feed_text {carry rest : List UInt8} (reads : List (List UInt8)) (hcut : IsCut carry)
    (h : IsUtf8 (carry ++ reads.flatten ++ rest)) :
    (feed (process gbk) carry reads).2.flatMap Text.bytes ++ (feed (process gbk) carry reads).1
        = carry ++ reads.flatten ∧
      IsCut (feed (process gbk) carry reads).1 := by
  induction reads generalizing carry with
  | nil =>
    rw [flatten_nil, append_nil]
    exact ⟨rfl, hcut⟩
  | cons buf reads ih =>
    rw [flatten_cons, ← append_assoc, append_assoc _ reads.flatten] at h
    obtain ⟨hout, hcut', hrest⟩ := process_text gbk h
    rw [← append_assoc] at hrest
    obtain ⟨ihout, ihcut⟩ := ih hcut' hrest
    rw [feed_cons]
    refine ⟨?_, ihcut⟩
    rw [flatMap_append, append_assoc, ihout, ← append_assoc, hout, flatten_cons, append_assoc]

theorem feed_segments (carry : List UInt8) (hcarry : carry.length ≤ 3)
    (reads : List (List UInt8)) :
    ∃ segments : List (List UInt8),
      (feed (process gbk) carry reads).2 = segments.map (decodeTerminalOutput gbk) ∧
      segments.flatten ++ (feed (process gbk) carry reads).1 = carry ++ reads.flatten ∧
      (feed (process gbk) carry reads).1.length ≤ 3 := by
  induction reads generalizing carry with
  | nil => exact ⟨[], rfl, (append_nil carry).symm, hcarry⟩
  | cons buf reads ih =>
    obtain ⟨s, hout, hsplit, hlen⟩ := process_segment gbk carry buf
    obtain ⟨t, ihout, ihsplit, ihlen⟩ := ih (process gbk carry buf).1 hlen
    rw [feed_cons]
    refine ⟨s ++ t, ?_, ?_, ihlen⟩
    · rw [map_append, ← hout, ← ihout]
    · rw [flatten_append, append_assoc, ihsplit, ← append_assoc, hsplit, flatten_cons, append_assoc]

/-- **Decoding loses and invents nothing**: the reads of a text come out as the text, with the start of
one character at most still to come; the reads of any bytes are decoded segment by segment, and at most
three bytes wait. -/
theorem reads_lossless (reads : List (List UInt8)) :
    (∀ rest, IsUtf8 (reads.flatten ++ rest) →
      (feed (process gbk) [] reads).2.flatMap Text.bytes ++ (feed (process gbk) [] reads).1
          = reads.flatten ∧ IsCut (feed (process gbk) [] reads).1) ∧
    (∃ segments : List (List UInt8),
      (feed (process gbk) [] reads).2 = segments.map (decodeTerminalOutput gbk) ∧
      segments.flatten ++ (feed (process gbk) [] reads).1 = reads.flatten) ∧
    (feed (process gbk) [] reads).1.length ≤ 3 := by
  refine ⟨fun rest h => feed_text gbk reads isCut_nil h, ?_⟩
  obtain ⟨segments, hout, hsplit, hlen⟩ := feed_segments gbk [] (Nat.zero_le 3) reads
  exact ⟨⟨segments, hout, hsplit⟩, hlen⟩

end

end CcPanes.TerminalDecoding

import CcPanes.Foundation.Transducer

/-!
# The write backlog of a hidden terminal

While a view is hidden its output is kept in a bounded backlog; the first chunk that does not fit
freezes the backlog, and later hidden chunks are dropped.  The backlog is kept as sealed blocks and
open chunks, so that many small chunks do not become many strings.

Strings are lists of code units of any type `α`; `notice` is the text that reports a truncation.
-/

namespace CcPanes

structure HiddenWriteBuffer (α : Type) where
  sealedBlocks : List (List α)
  openChunks : List (List α)
  openLength : Nat
  pendingLength : Nat
  overflowed : Bool
  openLength_eq : openLength = openChunks.flatten.length
  pendingLength_eq : pendingLength = sealedBlocks.flatten.length + openChunks.flatten.length

namespace HiddenWriteBuffer

def maxOpenChunks : Nat := 128

def targetBlockChars : Nat := 8 * 1024

def maxSealedBlocks : Nat := 64

section
variable {α : Type} {max : Nat} {data : List α} {b b' : HiddenWriteBuffer α}

def empty : HiddenWriteBuffer α where
  sealedBlocks := []
  openChunks := []
  openLength := 0
  pendingLength := 0
  overflowed := false
  openLength_eq := rfl
  pendingLength_eq := rfl

def text (b : HiddenWriteBuffer α) : List α := b.sealedBlocks.flatten ++ b.openChunks.flatten

theorem length_text (b : HiddenWriteBuffer α) : b.text.length = b.pendingLength := by
  rw [text, List.length_append, b.pendingLength_eq]

def sealOpenChunks (b : HiddenWriteBuffer α) : HiddenWriteBuffer α :=
  if b.openChunks.isEmpty then b
  else
    let sealedBlocks := b.sealedBlocks ++ [b.openChunks.flatten]
    { sealedBlocks :=
        if maxSealedBlocks ≤ sealedBlocks.length then [sealedBlocks.flatten] else sealedBlocks
      openChunks := []
      openLength := 0
      pendingLength := b.pendingLength
      overflowed := b.overflowed
      openLength_eq := rfl
      pendingLength_eq := by
        rw [b.pendingLength_eq]
        split <;> simp [sealedBlocks] }

def takeAll (b : HiddenWriteBuffer α) (notice : List α) : HiddenWriteBuffer α × Option (List α) :=
  if b.pendingLength = 0 ∧ b.overflowed = false then (b, none)
  else (empty, some (b.text ++ if b.overflowed then notice else []))

def push (b : HiddenWriteBuffer α) (visible : Bool) (maxPendingChars : Nat) (notice data : List α) :
    HiddenWriteBuffer α × Option (List α) :=
  if data.isEmpty then (b, none)
  else if visible then
    match b.takeAll notice with
    | (b, none) => (b, some data)
    | (b, some drained) => (b, some (drained ++ data))
  else if b.overflowed then (b, none)
  else if maxPendingChars < b.pendingLength + data.length then ({ b with overflowed := true }, none)
  else
    let b : HiddenWriteBuffer α :=
      { b with
        openChunks := b.openChunks ++ [data]
        openLength := b.openLength + data.length
        pendingLength := b.pendingLength + data.length
        openLength_eq := by simp [b.openLength_eq]
        pendingLength_eq := by
          rw [b.pendingLength_eq, List.flatten_append, List.flatten_singleton, List.length_append]
          omega }
    (if maxOpenChunks ≤ b.openChunks.length ∨ targetBlockChars ≤ b.openLength then b.sealOpenChunks
      else b, none)

def reset (_ : HiddenWriteBuffer α) : HiddenWriteBuffer α := empty

def didOverflow (b : HiddenWriteBuffer α) : Bool := b.overflowed

/-! ## what the operations do to the text -/

@[simp] theorem text_empty : (empty : HiddenWriteBuffer α).text = [] := rfl

theorem text_sealOpenChunks (b : HiddenWriteBuffer α) : b.sealOpenChunks.text = b.text := by
  unfold sealOpenChunks
  split
  · rfl
  · show (if _ then [(b.sealedBlocks ++ [b.openChunks.flatten]).flatten] else _).flatten ++ [] = _
    unfold text
    split <;> simp

theorem overflowed_sealOpenChunks (b : HiddenWriteBuffer α) :
    b.sealOpenChunks.overflowed = b.overflowed := by
  unfold sealOpenChunks
  split <;> rfl

theorem pendingLength_eq_zero (b : HiddenWriteBuffer α) : b.pendingLength = 0 ↔ b.text = [] := by
  rw [← b.length_text, List.length_eq_zero_iff]

theorem takeAll_eq (b : HiddenWriteBuffer α) (notice : List α) (ho : b.overflowed = false) :
    (b.takeAll notice).1.text = [] ∧ (b.takeAll notice).1.overflowed = false ∧
      (b.takeAll notice).2.getD [] = b.text := by
  unfold takeAll
  split
  · next h =>
    have htext := b.pendingLength_eq_zero.mp h.1
    exact ⟨htext, ho, htext.symm⟩
  · rw [ho]
    exact ⟨rfl, rfl, by simp⟩

theorem push_visible (b : HiddenWriteBuffer α) (max : Nat) (notice : List α) (hd : data ≠ [])
    (ho : b.overflowed = false) :
    (b.push true max notice data).1.text = [] ∧
      (b.push true max notice data).1.overflowed = false ∧
      (b.push true max notice data).2 = some (b.text ++ data) := by
  obtain ⟨htext, hof, htaken⟩ := b.takeAll_eq notice ho
  unfold push
  rw [if_neg (by simpa using hd), if_pos rfl]
  cases htake : b.takeAll notice with
  | mk b' drained =>
    rw [htake] at htext hof htaken
    cases drained with
    | none | some t => exact ⟨htext, hof, congrArg (fun t => some (t ++ data)) htaken⟩

theorem push_hidden (b : HiddenWriteBuffer α) (notice : List α) (ho : b.overflowed = false)
    (hfit : b.pendingLength + data.length ≤ max) :
    (b.push false max notice data).1.text = b.text ++ data ∧
      (b.push false max notice data).1.overflowed = false ∧
      (b.push false max notice data).2 = none := by
  unfold push
  split
  · next hd =>
    rw [List.isEmpty_iff.mp hd, List.append_nil]
    exact ⟨rfl, ho, rfl⟩
  rw [if_neg (by simp), if_neg (by simp [ho]), if_neg (by omega)]
  dsimp only
  split
  · rw [text_sealOpenChunks, overflowed_sealOpenChunks]
    exact ⟨by simp [text], ho, rfl⟩
  · exact ⟨by simp [text], ho, rfl⟩

theorem push_hidden_drops (b : HiddenWriteBuffer α) (notice : List α) (hd : data ≠ [])
    (hfull : b.overflowed = true ∨ max < b.pendingLength + data.length) :
    (b.push false max notice data).1.overflowed = true ∧
      (b.push false max notice data).2 = none := by
  unfold push
  rw [if_neg (by simpa using hd), if_neg (by simp)]
  by_cases ho : b.overflowed = true
  · rw [if_pos ho]
    exact ⟨ho, rfl⟩
  · have hlong : max < b.pendingLength + data.length := hfull.resolve_left ho
    rw [if_neg ho, if_pos hlong]
    exact ⟨rfl, rfl⟩

theorem mem_push_written {visible : Bool} {notice data out : List α}
    (h : b.push visible max notice data = (b', some out)) :
    visible = true ∧ (∀ u ∈ b'.text, u ∈ b.text) ∧
      (∀ u ∈ out, u ∈ b.text ∨ u ∈ notice ∨ u ∈ data) ∧ ∀ u ∈ data, u ∈ out := by
  unfold push at h
  split at h
  · cases h
  split at h
  · next hv =>
    refine ⟨hv, ?_⟩
    unfold takeAll at h
    by_cases hp : b.pendingLength = 0 ∧ b.overflowed = false
    · rw [if_pos hp] at h
      obtain ⟨rfl, hout⟩ := Prod.mk.inj h
      cases hout
      exact ⟨fun _ hu => hu, fun _ hu => .inr (.inr hu), fun _ hu => hu⟩
    rw [if_neg hp] at h
    obtain ⟨rfl, hout⟩ := Prod.mk.inj h
    cases hout
    refine ⟨nofun, fun u hu => ?_,
      fun _ hu => List.mem_append_right _ hu⟩
    rcases List.mem_append.mp hu with hu | hu
    · rcases List.mem_append.mp hu with hu | hu
      · exact .inl hu
      · split at hu
        · exact .inr (.inl hu)
        · cases hu
    · exact .inr (.inr hu)
  · split at h
    · cases h
    · split at h
      · cases h
      · cases h

theorem mem_push_kept {visible : Bool} {notice data : List α}
    (h : b.push visible max notice data = (b', none)) : ∀ u ∈ b'.text, u ∈ b.text ∨ u ∈ data := by
  unfold push at h
  split at h
  · obtain ⟨rfl, _⟩ := Prod.mk.inj h
    exact fun _ hu => .inl hu
  split at h
  · unfold takeAll at h
    by_cases hp : b.pendingLength = 0 ∧ b.overflowed = false
    · rw [if_pos hp] at h
      cases h
    · rw [if_neg hp] at h
      cases h
  split at h
  · obtain ⟨rfl, _⟩ := Prod.mk.inj h
    exact fun _ hu => .inl hu
  split at h
  · obtain ⟨rfl, _⟩ := Prod.mk.inj h
    exact fun _ hu => .inl hu
  obtain ⟨rfl, _⟩ := Prod.mk.inj h
  intro u hu
  split at hu
  · rw [text_sealOpenChunks] at hu
    simpa [text, or_assoc] using hu
  · simpa [text, or_assoc] using hu

/-! ## the backlog as one string -/

inductive BufferCall (α : Type) where
  | push (visible : Bool) (maxPendingChars : Nat) (data : List α)
  | drain
  | reset

def call (notice : List α) (b : HiddenWriteBuffer α) :
    BufferCall α → HiddenWriteBuffer α × List (Option (List α))
  | .push visible max data =>
    ((b.push visible max notice data).1, [(b.push visible max notice data).2])
  | .drain => ((b.takeAll notice).1, [(b.takeAll notice).2])
  | .reset => (b.reset, [])

/-- what the buffer is for: one string, and whether a chunk was dropped -/
structure Backlog (α : Type) where
  text : List α
  overflowed : Bool

def Backlog.takeAll (s : Backlog α) (notice : List α) : Option (List α) :=
  if s.text = [] ∧ s.overflowed = false then none
  else some (s.text ++ if s.overflowed then notice else [])

def Backlog.call (notice : List α) (s : Backlog α) :
    BufferCall α → Backlog α × List (Option (List α))
  | .push visible max data =>
    if data = [] then (s, [none])
    else if visible then (⟨[], false⟩, [some ((s.takeAll notice).getD [] ++ data)])
    else if s.overflowed ∨ max < s.text.length + data.length then (⟨s.text, true⟩, [none])
    else (⟨s.text ++ data, false⟩, [none])
  | .drain => (⟨[], false⟩, [s.takeAll notice])
  | .reset => (⟨[], false⟩, [])

def backlog (b : HiddenWriteBuffer α) : Backlog α := ⟨b.text, b.overflowed⟩

theorem takeAll_backlog (b : HiddenWriteBuffer α) (notice : List α) :
    (b.takeAll notice).1.backlog = ⟨[], false⟩ ∧
      (b.takeAll notice).2 = b.backlog.takeAll notice := by
  simp only [takeAll, Backlog.takeAll, backlog, b.pendingLength_eq_zero]
  split
  · next h => exact ⟨by rw [h.1, h.2], (if_pos h).symm⟩
  · next h => exact ⟨rfl, (if_neg h).symm⟩

theorem push_overflow (b : HiddenWriteBuffer α) (notice : List α) (hd : data ≠ [])
    (hfull : b.overflowed = true ∨ max < b.text.length + data.length) :
    b.push false max notice data = ({ b with overflowed := true }, none) := by
  unfold push
  rw [if_neg (by simpa using hd), if_neg (by simp)]
  by_cases ho : b.overflowed = true
  · rw [if_pos ho, ← ho]
  · rw [length_text] at hfull
    rw [if_neg ho, if_pos (hfull.resolve_left ho)]

theorem call_backlog (b : HiddenWriteBuffer α) (notice : List α) (c : BufferCall α) :
    b.backlog.call notice c = ((b.call notice c).1.backlog, (b.call notice c).2) := by
  obtain ⟨hempty, htaken⟩ := b.takeAll_backlog notice
  cases c with
  | reset => rfl
  | drain => exact Prod.ext hempty.symm (congrArg ([·]) htaken.symm)
  | push visible max data =>
    show (if data = [] then _ else _) =
      ((b.push visible max notice data).1.backlog, [(b.push visible max notice data).2])
    by_cases hd : data = []
    · rw [if_pos hd, push, if_pos (by simpa using hd)]
    rw [if_neg hd]
    cases visible with
    | true =>
      rw [if_pos rfl, push, if_neg (by simpa using hd), if_pos rfl, ← htaken, ← hempty]
      cases b.takeAll notice with
      | mk b' drained => cases drained <;> rfl
    | false =>
      rw [if_neg (by simp)]
      by_cases hfull : b.overflowed = true ∨ max < b.text.length + data.length
      · rw [b.push_overflow notice hd hfull]
        exact if_pos hfull
      · obtain ⟨ho, hfit⟩ := not_or.mp hfull
        have hlen : b.pendingLength + data.length ≤ max := b.length_text ▸ Nat.not_lt.mp hfit
        obtain ⟨htext, hover, hnone⟩ := b.push_hidden notice (by simpa using ho) hlen
        have hb : (b.push false max notice data).1.backlog = ⟨b.text ++ data, false⟩ := by
          rw [backlog, htext, hover]
        rw [hnone, hb]
        exact if_neg hfull

/-- there are few blocks and few open chunks, however small the chunks are -/
def Few (b : HiddenWriteBuffer α) : Prop :=
  b.sealedBlocks.length < maxSealedBlocks ∧ b.openChunks.length < maxOpenChunks

theorem few_empty : Few (empty : HiddenWriteBuffer α) := by
  constructor
  · show 0 < maxSealedBlocks
    decide
  · show 0 < maxOpenChunks
    decide

theorem few_sealOpenChunks (hb : b.sealedBlocks.length < maxSealedBlocks) :
    Few b.sealOpenChunks := by
  have hnone : 0 < maxOpenChunks := by decide
  unfold sealOpenChunks
  split
  · next h =>
    refine ⟨hb, ?_⟩
    rw [List.isEmpty_iff.mp h]
    exact hnone
  · refine ⟨?_, hnone⟩
    show (if _ then [(b.sealedBlocks ++ [b.openChunks.flatten]).flatten] else _).length < _
    split
    · show 1 < maxSealedBlocks
      decide
    · next hlt => exact Nat.not_le.mp hlt

theorem few_call (notice : List α) (c : BufferCall α) (h : Few b) : Few (b.call notice c).1 := by
  have htaken : Few (b.takeAll notice).1 := by
    unfold takeAll
    split
    · exact h
    · exact few_empty
  cases c with
  | reset => exact few_empty
  | drain => exact htaken
  | push visible max data =>
    show Few (b.push visible max notice data).1
    unfold push
    split
    · exact h
    split
    · cases htake : b.takeAll notice with
      | mk b' drained =>
        rw [htake] at htaken
        cases drained <;> exact htaken
    split
    · exact h
    split
    · exact h
    dsimp only
    split
    · exact few_sealOpenChunks h.1
    · next hfew => exact ⟨h.1, Nat.not_le.mp (not_or.mp hfew).1⟩

/-- **The blocks are one string**, and the backlog is kept in few pieces. -/
theorem backlog_refined (notice : List α) (calls : List (BufferCall α)) :
    let r := Transducer.feed (call notice) empty calls
    Transducer.feed (Backlog.call notice) ⟨[], false⟩ calls = (r.1.backlog, r.2) ∧ Few r.1 := by
  intro r
  have hsees : Transducer.Sees (call notice) (Backlog.call notice) backlog Few :=
    fun b c h => ⟨few_call notice c h, call_backlog b notice c⟩
  have hstate : r.1.backlog = _ := hsees.feed_state few_empty calls
  have hout : r.2 = _ := hsees.feed few_empty calls
  exact ⟨Prod.ext hstate.symm hout.symm, hsees.feed_inv few_empty calls⟩

end

end HiddenWriteBuffer

end CcPanes

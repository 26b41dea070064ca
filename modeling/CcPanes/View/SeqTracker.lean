/-!
# The output sequence tracker

The front end pairs a picture of the terminal with the end position of the last chunk that it shows.
The tracker of a session records the last chunk received and the last chunk written, and whether the
two can be trusted; all views of the session share it.
-/

namespace CcPanes
open Option

structure SeqTrackerEntry where
  lastReceivedEndSeq : Option Nat
  lastWrittenEndSeq : Option Nat
  checkpointEpoch : Option Nat
  valid : Bool

structure SeqAnchorCandidate where
  anchorSeq : Nat
  checkpointEpoch : Nat
  deriving DecidableEq

/-- the entry of the session in `entries`, if it has one -/
abbrev SeqTracker := Option SeqTrackerEntry

namespace SeqTracker

variable {entry : SeqTrackerEntry} {endSeq : Nat} {entry' : SeqTrackerEntry}

def entryOf (t : SeqTracker) : SeqTrackerEntry := t.getD ⟨none, none, none, true⟩

def noteReceived (t : SeqTracker) (endSeq : Nat) : SeqTracker :=
  let entry := entryOf t
  some { entry with
    lastReceivedEndSeq := some endSeq
    valid := match entry.lastReceivedEndSeq with
      | some last => if endSeq ≤ last then false else entry.valid
      | none => entry.valid }

def noteWritten (t : SeqTracker) (endSeq : Nat) : SeqTracker :=
  let entry := entryOf t
  match entry.lastWrittenEndSeq with
  | some last => if endSeq ≤ last then some entry
    else some { entry with lastWrittenEndSeq := some endSeq }
  | none => some { entry with lastWrittenEndSeq := some endSeq }

def invalidateSeq (t : SeqTracker) : SeqTracker := t.map fun entry => { entry with valid := false }

def reanchorSeq (_ : SeqTracker) (endSeq checkpointEpoch : Nat) : SeqTracker :=
  some ⟨some endSeq, some endSeq, some checkpointEpoch, true⟩

def noteEpoch (t : SeqTracker) (checkpointEpoch : Nat) : SeqTracker :=
  let entry := entryOf t
  match entry.checkpointEpoch with
  | some epoch => if epoch ≠ checkpointEpoch then some ⟨none, none, some checkpointEpoch, false⟩
    else some { entry with checkpointEpoch := some checkpointEpoch }
  | none => some { entry with checkpointEpoch := some checkpointEpoch }

def anchorCandidate (t : SeqTracker) : Option SeqAnchorCandidate :=
  match t with
  | some ⟨lastReceivedEndSeq, some lastWrittenEndSeq, some checkpointEpoch, true⟩ =>
    if lastReceivedEndSeq = some lastWrittenEndSeq then some ⟨lastWrittenEndSeq, checkpointEpoch⟩
    else none
  | _ => none

theorem anchorCandidate_eq_some {t : SeqTracker} {c : SeqAnchorCandidate} :
    t.anchorCandidate = some c ↔ ∃ entry, t = some entry ∧ entry.valid = true ∧
      entry.lastReceivedEndSeq = some c.anchorSeq ∧ entry.lastWrittenEndSeq = some c.anchorSeq ∧
      entry.checkpointEpoch = some c.checkpointEpoch := by
  unfold anchorCandidate
  constructor
  · intro h
    split at h
    · next lr lw epoch =>
      split at h
      · next heq =>
        cases h
        exact ⟨_, rfl, rfl, heq, rfl, rfl⟩
      · cases h
    · cases h
  · rintro ⟨⟨lr, lw, epoch, valid⟩, rfl, hv, hr, hw, he⟩
    subst hv hr hw he
    exact if_pos rfl

/-! ## a tracker that is not trusted -/

def Invalid (t : SeqTracker) : Prop := ∃ entry, t = some entry ∧ entry.valid = false

variable {t : SeqTracker}

theorem Invalid.noteReceived (h : t.Invalid) (endSeq : Nat) : (t.noteReceived endSeq).Invalid := by
  obtain ⟨entry, rfl, hv⟩ := h
  refine ⟨_, rfl, ?_⟩
  split
  · split
    · rfl
    · exact hv
  · exact hv

theorem Invalid.noteWritten (h : t.Invalid) (endSeq : Nat) : (t.noteWritten endSeq).Invalid := by
  obtain ⟨entry, rfl, hv⟩ := h
  unfold SeqTracker.noteWritten entryOf
  dsimp only [getD_some]
  split
  · split
    · exact ⟨_, rfl, hv⟩
    · exact ⟨_, rfl, hv⟩
  · exact ⟨_, rfl, hv⟩

theorem Invalid.invalidateSeq (h : t.Invalid) : t.invalidateSeq.Invalid := by
  obtain ⟨entry, rfl, _⟩ := h
  exact ⟨_, rfl, rfl⟩

theorem Invalid.noteEpoch (h : t.Invalid) (epoch : Nat) : (t.noteEpoch epoch).Invalid := by
  obtain ⟨entry, rfl, hv⟩ := h
  unfold SeqTracker.noteEpoch entryOf
  dsimp only [getD_some]
  split
  · split
    · exact ⟨_, rfl, rfl⟩
    · exact ⟨_, rfl, hv⟩
  · exact ⟨_, rfl, hv⟩

theorem Invalid.not_valid (h : t.Invalid) (ht : t = some entry) : entry.valid = false := by
  obtain ⟨entry', ht', hv⟩ := h
  cases ht.symm.trans ht'
  exact hv

theorem invalidateSeq_not_valid (h : t.invalidateSeq = some entry) : entry.valid = false := by
  cases t with
  | none => exact absurd h (by simp [SeqTracker.invalidateSeq])
  | some old => exact some.inj h ▸ rfl

theorem noteReceived_valid (h : t.noteReceived endSeq = some entry') (hv : entry'.valid = true)
    (he : entry'.checkpointEpoch ≠ none) :
    ∃ entry, t = some entry ∧ entry.valid = true ∧
      entry' = { entry with lastReceivedEndSeq := some endSeq } ∧
      ∀ last, entry.lastReceivedEndSeq = some last → last < endSeq := by
  cases t with
  | none =>
    cases h
    exact absurd rfl he
  | some entry =>
    have h' := some.inj h
    dsimp only [entryOf, getD_some] at h'
    have hvalid : (match entry.lastReceivedEndSeq with
        | some last => if endSeq ≤ last then false else entry.valid
        | none => entry.valid) = true := by
      rw [← hv, ← h']
    cases hr : entry.lastReceivedEndSeq with
    | none =>
      rw [hr] at hvalid h'
      exact ⟨entry, rfl, hvalid, by rw [← h'], fun _ hl => nomatch (hr.symm.trans hl)⟩
    | some last =>
      rw [hr] at hvalid h'
      dsimp only at hvalid h'
      by_cases hle : endSeq ≤ last
      · rw [if_pos hle] at hvalid
        cases hvalid
      · rw [if_neg hle] at hvalid h'
        exact ⟨entry, rfl, hvalid, by rw [← h'],
          fun _ hl => some.inj (hr.symm.trans hl) ▸ Nat.lt_of_not_le hle⟩

theorem noteWritten_kept (h : t.noteWritten endSeq = some entry')
    (he : entry'.checkpointEpoch ≠ none) :
    ∃ entry, t = some entry ∧ entry.valid = entry'.valid ∧
      entry.checkpointEpoch = entry'.checkpointEpoch := by
  cases t with
  | none =>
    cases h
    exact absurd rfl he
  | some entry =>
    refine ⟨entry, rfl, ?_⟩
    unfold SeqTracker.noteWritten entryOf at h
    dsimp only [getD_some] at h
    split at h
    · split at h
      · cases h
        exact ⟨rfl, rfl⟩
      · cases h
        exact ⟨rfl, rfl⟩
    · cases h
      exact ⟨rfl, rfl⟩

theorem noteWritten_later (ht : t = some entry)
    (hlater : ∀ last, entry.lastWrittenEndSeq = some last → last < endSeq) :
    t.noteWritten endSeq = some { entry with lastWrittenEndSeq := some endSeq } := by
  subst ht
  unfold SeqTracker.noteWritten entryOf
  dsimp only [getD_some]
  split
  · next last hl => exact if_neg (Nat.not_le.mpr (hlater last hl))
  · rfl

end SeqTracker

end CcPanes

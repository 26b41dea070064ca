import CcPanes.Foundation.JsString
import CcPanes.Foundation.Run
import CcPanes.View.SeqTracker
import Mathlib.Logic.Function.Basic

/-!
# Checkpoints of a session with several views

All views of a session share one sequence tracker, but each has a write queue of its own, and a
checkpoint is a picture of one view.
-/

namespace CcPanes
open List Option Function

/-! ## taking a checkpoint -/

namespace CheckpointUpload

def checkpointUploadDebounceMs : Nat := 60000

inductive BufferMode
  | normal
  | alternate
  deriving DecidableEq

structure CheckpointTerminal where
  cols : Nat
  rows : Nat
  activeBuffer : BufferMode

structure TerminalCheckpointUpload where
  checkpointEpoch : Nat
  anchorSeq : Nat
  snapshotAnsi : JsString
  bufferMode : BufferMode
  cols : Nat
  rows : Nat
  checkpointedAtMs : Nat
  deriving DecidableEq

/-- `upload` stands for the results after `uploadCheckpoint` was called -/
inductive CaptureOutcome
  | skippedNoTerminal
  | skippedNoAnchor
  | skippedDebounce
  | serializeFailed
  | upload (checkpoint : TerminalCheckpointUpload)
  deriving DecidableEq

structure CaptureRequest where
  term : Option CheckpointTerminal
  /-- the serializer of the view, if it has one; it may throw -/
  serialize : Option (Option JsString)
  snapshotAnsi : Option JsString
  nowMs : Nat

/-- `lastAttemptAtMs` is the time of the session's last attempt -/
def captureAndUploadCheckpoint (tracker : SeqTracker) (lastAttemptAtMs : Option Nat)
    (r : CaptureRequest) : Option Nat × CaptureOutcome :=
  match r.term with
  | none => (lastAttemptAtMs, .skippedNoTerminal)
  | some term =>
    if r.snapshotAnsi = none ∧ r.serialize = none then (lastAttemptAtMs, .skippedNoTerminal)
    else
      match tracker.anchorCandidate with
      | none => (lastAttemptAtMs, .skippedNoAnchor)
      | some candidate =>
        if lastAttemptAtMs.any fun last => r.nowMs < last + checkpointUploadDebounceMs then
          (lastAttemptAtMs, .skippedDebounce)
        else
          match r.snapshotAnsi.or (r.serialize.getD none) with
          | none => (some r.nowMs, .serializeFailed)
          | some snapshotAnsi =>
            (some r.nowMs, .upload {
              checkpointEpoch := candidate.checkpointEpoch
              anchorSeq := candidate.anchorSeq
              snapshotAnsi := snapshotAnsi
              bufferMode := term.activeBuffer
              cols := term.cols
              rows := term.rows
              checkpointedAtMs := r.nowMs })

theorem captured_anchor {tracker : SeqTracker} {last : Option Nat} {r : CaptureRequest}
    {checkpoint : TerminalCheckpointUpload}
    (h : (captureAndUploadCheckpoint tracker last r).2 = .upload checkpoint) :
    tracker.anchorCandidate = some ⟨checkpoint.anchorSeq, checkpoint.checkpointEpoch⟩ := by
  unfold captureAndUploadCheckpoint at h
  split at h
  · cases h
  split at h
  · cases h
  split at h
  · cases h
  next candidate hc =>
  split at h
  · cases h
  split at h
  · cases h
  · obtain rfl := CaptureOutcome.upload.inj h
    exact hc

end CheckpointUpload

/-! ## views with queues of their own -/

namespace MirrorViews

open Run CheckpointUpload

structure World where
  tracker : SeqTracker
  /-- the chunks received, by their end positions -/
  chunks : List Nat
  /-- how many of them each view has written -/
  progress : Nat → Nat

inductive Action
  | received (endSeq : Nat)
  /-- the view has written its next chunk, and records it -/
  | written (view : Nat)
  | invalidate

section
variable (views : List Nat) (base : Option Nat) (epoch : Nat) {w : World} {chunks : List Nat}
  {view endSeq : Nat}

/-- all views show the session up to `base`; with no base, they have shown nothing yet -/
def World.init : World := ⟨some ⟨base, base, some epoch, true⟩, [], fun _ => 0⟩

def World.written (w : World) (view : Nat) : World :=
  match w.chunks[w.progress view]? with
  | none => w
  | some endSeq =>
    { w with
      tracker := w.tracker.noteWritten endSeq
      progress := Function.update w.progress view (w.progress view + 1) }

def World.step (w : World) : Action → World
  | .received endSeq =>
    { w with tracker := w.tracker.noteReceived endSeq, chunks := w.chunks ++ [endSeq] }
  | .written view => if view ∈ views then w.written view else w
  | .invalidate => { w with tracker := w.tracker.invalidateSeq }

/-- the view has written every chunk up to `anchorSeq` -/
def HasWritten (w : World) (view anchorSeq : Nat) : Prop :=
  ∀ i endSeq, w.chunks[i]? = some endSeq → endSeq ≤ anchorSeq → i < w.progress view

/-- a checkpoint of any view, taken now, shows what its anchor says -/
def AnchorsSound (w : World) : Prop :=
  ∀ view ∈ views, ∀ last r checkpoint,
    (captureAndUploadCheckpoint w.tracker last r).2 = .upload checkpoint →
      HasWritten w view checkpoint.anchorSeq

/-- no view records the newest chunk as written, in a valid tracker, before every other view has
written it -/
def KeepsPace (w : World) : Action → Prop
  | .written view => view ∈ views → (w.tracker.any SeqTrackerEntry.valid) = true →
      w.progress view + 1 = w.chunks.length →
        ∀ other ∈ views, other ≠ view → w.progress other = w.chunks.length
  | _ => True

/-! ## the marks -/

/-- the end position of the first `n` chunks -/
def mark (chunks : List Nat) : Nat → Option Nat
  | 0 => base
  | n + 1 => chunks[n]?

structure Marks (w : World) (entry : SeqTrackerEntry) : Prop where
  increasing : ∀ m n a b, m < n → mark base w.chunks m = some a → mark base w.chunks n = some b →
    a < b
  received : entry.lastReceivedEndSeq = mark base w.chunks w.chunks.length
  written : ∃ m ≤ w.chunks.length, entry.lastWrittenEndSeq = mark base w.chunks m ∧
    (∀ view ∈ views, w.progress view ≤ m) ∧ (m = 0 ∨ ∃ view ∈ views, w.progress view = m)

def MarksInv (w : World) : Prop :=
  ∃ entry, w.tracker = some entry ∧ entry.checkpointEpoch = some epoch ∧
    (entry.valid = true → Marks views base w entry)

/-- the views are level whenever one of them has written everything, if the tracker is valid -/
def Level (w : World) : Prop :=
  (w.tracker.any SeqTrackerEntry.valid) = true →
    ∀ view ∈ views, w.progress view = w.chunks.length →
      ∀ other ∈ views, w.progress other = w.chunks.length

variable {views base epoch}

@[simp] theorem mark_succ (chunks : List Nat) (n : Nat) : mark base chunks (n + 1) = chunks[n]? :=
  rfl

theorem mark_append {endSeq m : Nat} (h : m ≤ chunks.length) :
    mark base (chunks ++ [endSeq]) m = mark base chunks m := by
  cases m with
  | zero => rfl
  | succ => exact getElem?_append_left h

theorem mark_append_length (chunks : List Nat) (endSeq : Nat) :
    mark base (chunks ++ [endSeq]) (chunks.length + 1) = some endSeq := by
  rw [mark_succ, getElem?_concat_length]

theorem le_of_mark {n a : Nat} (h : mark base chunks (n + 1) = some a) : n + 1 ≤ chunks.length :=
  (List.getElem?_eq_some_iff.mp h).1

theorem mark_length (h : 0 < chunks.length) :
    ∃ a, mark base chunks chunks.length = some a ∧ chunks[chunks.length - 1]? = some a := by
  obtain ⟨n, hn⟩ : ∃ n, chunks.length = n + 1 := ⟨_, (Nat.sub_add_cancel h).symm⟩
  have hlt : n < chunks.length := by omega
  have ha : chunks[n]? = some chunks[n] := getElem?_eq_getElem hlt
  generalize chunks[n] = a at ha
  rw [hn]
  exact ⟨a, ha, ha⟩

theorem Marks.eq_of_mark {entry : SeqTrackerEntry} (h : Marks views base w entry) {m n a : Nat}
    (hm : mark base w.chunks m = some a) (hn : mark base w.chunks n = some a) : m = n := by
  rcases Nat.lt_trichotomy m n with hlt | heq | hlt
  · exact absurd (h.increasing m n a a hlt hm hn) (Nat.lt_irrefl a)
  · exact heq
  · exact absurd (h.increasing n m a a hlt hn hm) (Nat.lt_irrefl a)

theorem anchorsSound_iff : AnchorsSound views w ↔
    ∀ view ∈ views, ∀ candidate, w.tracker.anchorCandidate = some candidate →
      HasWritten w view candidate.anchorSeq := by
  constructor
  · intro h view hview candidate hc
    refine h view hview none ⟨some ⟨80, 24, .normal⟩, none, some [], 0⟩
      ⟨candidate.checkpointEpoch, candidate.anchorSeq, [], .normal, 80, 24, 0⟩ ?_
    simp [captureAndUploadCheckpoint, hc]
  · intro h view hview last r checkpoint hup
    exact h view hview _ (captured_anchor hup)

theorem sound_iff_level (h : MarksInv views base epoch w) :
    AnchorsSound views w ↔ Level views w := by
  obtain ⟨entry, ht, he, hm⟩ := h
  have hvalid : (w.tracker.any SeqTrackerEntry.valid) = entry.valid := by
    rw [ht]
    rfl
  rw [anchorsSound_iff]
  unfold Level
  rw [hvalid]
  constructor
  · intro hs hv view hview hp other hother
    obtain ⟨_, hr, m, hle, hw, hmax, _⟩ := hm hv
    have hml : m = w.chunks.length := Nat.le_antisymm hle (hp ▸ hmax view hview)
    have hle' := hmax other hother
    rcases Nat.eq_zero_or_pos w.chunks.length with h0 | hpos
    · omega
    obtain ⟨a, hlast, hi⟩ := @mark_length base _ hpos
    have hc : w.tracker.anchorCandidate = some ⟨a, epoch⟩ :=
      SeqTracker.anchorCandidate_eq_some.mpr
        ⟨entry, ht, hv, hr.trans hlast, by rw [hw, hml, hlast], he⟩
    have hlt := hs other hother _ hc _ _ hi (Nat.le_refl a)
    omega
  intro hl view hview candidate hc i endSeq hi _
  obtain ⟨entry', ht', hv, hr, hw, _⟩ := SeqTracker.anchorCandidate_eq_some.mp hc
  cases ht.symm.trans ht'
  have hmarks := hm hv
  obtain ⟨_, hr', m, hle, hw', hmax, hfast⟩ := hmarks
  have hilt := (List.getElem?_eq_some_iff.mp hi).1
  -- the newest chunk is written: some view has written everything
  have hml : m = w.chunks.length :=
    (hm hv).eq_of_mark (hw'.symm.trans hw) (hr'.symm.trans hr)
  rcases hfast with h0 | ⟨fast, hfast, hp⟩
  · omega
  · rw [hl hv fast hfast (hp.trans hml) view hview]
    exact hilt

/-! ## what one step does -/

theorem marksInv_init : MarksInv views base epoch (World.init base epoch) := by
  refine ⟨_, rfl, rfl, fun _ => ⟨?_, rfl, 0, Nat.le_refl 0, rfl, fun _ _ => Nat.le_refl 0,
    .inl rfl⟩⟩
  intro m n a b hmn _ hn
  obtain ⟨k, rfl⟩ : ∃ k, n = k + 1 := ⟨n - 1, by omega⟩
  exact absurd (le_of_mark hn) (Nat.not_succ_le_zero k)

theorem marks_received {entry : SeqTrackerEntry}
    (hm : entry.valid = true → Marks views base w entry) {endSeq : Nat}
    (hv : (match entry.lastReceivedEndSeq with
      | some last => if endSeq ≤ last then false else entry.valid
      | none => entry.valid) = true) :
    entry.valid = true ∧ ∀ m a, m ≤ w.chunks.length → mark base w.chunks m = some a →
      a < endSeq := by
  cases hlr : entry.lastReceivedEndSeq with
  | none =>
    rw [hlr] at hv
    refine ⟨hv, fun m a hle ha => ?_⟩
    have hr := (hm hv).received
    rcases Nat.eq_zero_or_pos w.chunks.length with h0 | hpos
    · obtain rfl : m = 0 := by omega
      rw [h0] at hr
      cases (hlr.symm.trans hr).trans ha
    · obtain ⟨b, hb, _⟩ := @mark_length base _ hpos
      cases (hlr.symm.trans hr).trans hb
  | some last =>
    rw [hlr] at hv
    dsimp only at hv
    split at hv
    · cases hv
    next hlt =>
    refine ⟨hv, fun m a hle ha => ?_⟩
    have hr := hlr.symm.trans (hm hv).received
    rcases Nat.lt_or_eq_of_le hle with hml | rfl
    · have := (hm hv).increasing _ _ _ _ hml ha hr.symm
      omega
    · have : last = a := some.inj (hr.trans ha)
      omega

theorem marksInv_received (h : MarksInv views base epoch w) (endSeq : Nat) :
    MarksInv views base epoch (w.step views (.received endSeq)) := by
  obtain ⟨entry, ht, he, hm⟩ := h
  have ht' : (w.step views (.received endSeq)).tracker = w.tracker.noteReceived endSeq := rfl
  rw [ht] at ht'
  refine ⟨_, ht', he, fun hv => ?_⟩
  obtain ⟨hvalid, hlt⟩ := marks_received hm hv
  obtain ⟨hinc, hr, m, hle, hw, hmax, hfast⟩ := hm hvalid
  have hlen : (w.step views (.received endSeq)).chunks = w.chunks ++ [endSeq] := rfl
  have hlength : (w.chunks ++ [endSeq]).length = w.chunks.length + 1 := by simp
  refine ⟨?_, ?_, m, ?_, ?_, hmax, hfast⟩
  · rw [hlen]
    intro i j a b hij hi hj
    have hj' : j ≤ w.chunks.length + 1 := by
      cases j with
      | zero => exact Nat.zero_le _
      | succ => exact hlength ▸ le_of_mark hj
    rw [mark_append (by omega)] at hi
    rcases Nat.lt_or_eq_of_le hj' with hjl | rfl
    · rw [mark_append (by omega)] at hj
      exact hinc i j a b hij hi hj
    · rw [mark_append_length] at hj
      exact some.inj hj ▸ hlt i a (by omega) hi
  · rw [hlen, hlength, mark_append_length]
  · rw [hlen, hlength]
    omega
  · rw [hlen, mark_append hle]
    exact hw

theorem progress_written (hi : w.chunks[w.progress view]? = some endSeq) :
    w.written view = ⟨w.tracker.noteWritten endSeq, w.chunks,
      Function.update w.progress view (w.progress view + 1)⟩ := by
  unfold World.written
  rw [hi]

theorem marksInv_written (h : MarksInv views base epoch w) (hview : view ∈ views)
    (hi : w.chunks[w.progress view]? = some endSeq) :
    MarksInv views base epoch (w.written view) := by
  rw [progress_written hi]
  obtain ⟨entry, ht, he, hm⟩ := h
  have hlt := (List.getElem?_eq_some_iff.mp hi).1
  have hnext : mark base w.chunks (w.progress view + 1) = some endSeq := hi
  have hself : update w.progress view (w.progress view + 1) view = w.progress view + 1 :=
    update_self ..
  have hother : ∀ u, u ≠ view →
      update w.progress view (w.progress view + 1) u = w.progress u :=
    fun u hu => update_of_ne hu ..
  -- the marks after `noteWritten`, wherever the mark is
  have hmarks : ∀ lw : Option Nat, (entry.valid = true → ∃ m ≤ w.chunks.length,
      lw = mark base w.chunks m ∧ w.progress view + 1 ≤ m ∧ (∀ u ∈ views, w.progress u ≤ m) ∧
        (m = w.progress view + 1 ∨ ∃ u ∈ views, w.progress u = m)) →
      w.tracker.noteWritten endSeq = some { entry with lastWrittenEndSeq := lw } →
      MarksInv views base epoch ⟨w.tracker.noteWritten endSeq, w.chunks,
        update w.progress view (w.progress view + 1)⟩ := by
    intro lw hlw heq
    refine ⟨_, heq, he, fun hv => ?_⟩
    obtain ⟨hinc, hr, _⟩ := hm hv
    obtain ⟨m, hle, hget, hself', hmax, hfast⟩ := hlw hv
    refine ⟨hinc, hr, m, hle, hget, fun u hu => ?_, .inr ?_⟩
    · by_cases huv : u = view
      · rw [huv]
        exact Nat.le_trans (Nat.le_of_eq hself) hself'
      · exact Nat.le_trans (Nat.le_of_eq (hother u huv)) (hmax u hu)
    rcases hfast with rfl | ⟨u, hu, hp⟩
    · exact ⟨view, hview, hself⟩
    refine ⟨u, hu, ?_⟩
    have huv : u ≠ view := by
      rintro rfl
      omega
    exact (hother u huv).trans hp
  -- no mark yet: the chunk is the first one written
  cases hlw : entry.lastWrittenEndSeq with
  | none =>
    refine hmarks (some endSeq) (fun hv => ?_) (by simp [ht, SeqTracker.noteWritten,
      SeqTracker.entryOf, hlw])
    obtain ⟨_, _, m, hle, hw, hmax, _⟩ := hm hv
    obtain rfl : m = 0 := by
      cases m with
      | zero => rfl
      | succ =>
        rw [hlw, mark_succ, getElem?_eq_getElem hle] at hw
        cases hw
    exact ⟨w.progress view + 1, hlt, hnext.symm, Nat.le_refl _,
      fun u hu => Nat.le_trans (hmax u hu) (Nat.zero_le _), .inl rfl⟩
  | some last =>
    by_cases hle : endSeq ≤ last
    · refine hmarks (some last) (fun hv => ?_) ?_
      · obtain ⟨hinc, _, m, hm', hw, hmax, hfast⟩ := hm hv
        have hw' : mark base w.chunks m = some last := hw.symm.trans hlw
        have hpm : w.progress view + 1 ≤ m := by
          rcases Nat.lt_or_ge m (w.progress view + 1) with hmp | hmp
          · exact absurd (hinc _ _ _ _ hmp hw' hnext) (Nat.not_lt.mpr hle)
          · exact hmp
        refine ⟨m, hm', hw'.symm, hpm, hmax, ?_⟩
        exact hfast.elim (fun h0 => absurd h0 (by omega)) .inr
      · obtain ⟨lr, lw, ep, v⟩ := entry
        dsimp only at hlw
        subst hlw
        simp [ht, SeqTracker.noteWritten, SeqTracker.entryOf, hle]
    refine hmarks (some endSeq) (fun hv => ?_) ?_
    · have hmk := hm hv
      obtain ⟨hinc, _, m, hm', hw, hmax, hfast⟩ := hmk
      have hw' : mark base w.chunks m = some last := hw.symm.trans hlw
      have hmp : m < w.progress view + 1 := by
        rcases Nat.lt_or_ge m (w.progress view + 1) with hmp | hmp
        · exact hmp
        rcases Nat.lt_or_eq_of_le hmp with hlt' | heq
        · exact absurd (Nat.le_of_lt (hinc _ _ _ _ hlt' hnext hw')) hle
        · rw [heq] at hnext
          exact absurd (Nat.le_of_eq (some.inj (hnext.symm.trans hw'))) hle
      exact ⟨w.progress view + 1, hlt, hnext.symm, Nat.le_refl _,
        fun u hu => Nat.le_trans (hmax u hu) (Nat.le_of_lt hmp), .inl rfl⟩
    · obtain ⟨lr, lw, ep, v⟩ := entry
      dsimp only at hlw
      subst hlw
      simp [ht, SeqTracker.noteWritten, SeqTracker.entryOf, hle]

theorem marksInv_step (a : Action) (h : MarksInv views base epoch w) :
    MarksInv views base epoch (w.step views a) := by
  cases a with
  | received endSeq => exact marksInv_received h endSeq
  | written view =>
    simp only [World.step]
    split
    · next hview =>
      cases hi : w.chunks[w.progress view]? with
      | none =>
        unfold World.written
        rw [hi]
        exact h
      | some => exact marksInv_written h hview hi
    · exact h
  | invalidate =>
    obtain ⟨entry, ht, he, _⟩ := h
    refine ⟨{ entry with valid := false }, ?_, he, nofun⟩
    show w.tracker.invalidateSeq = _
    rw [ht]
    rfl

theorem valid_noteWritten (t : SeqTracker) (ht : t.isSome = true) (endSeq : Nat) :
    (t.noteWritten endSeq).any SeqTrackerEntry.valid = t.any SeqTrackerEntry.valid := by
  obtain ⟨entry, rfl⟩ := isSome_iff_exists.mp ht
  unfold SeqTracker.noteWritten SeqTracker.entryOf
  dsimp only [getD_some]
  split
  · split <;> rfl
  · rfl

theorem level_received (h : MarksInv views base epoch w) (endSeq : Nat) :
    Level views (w.step views (.received endSeq)) := by
  intro hv view hview hp
  obtain ⟨entry, ht, _, hm⟩ := h
  have hv' : ((w.tracker.noteReceived endSeq).any SeqTrackerEntry.valid) = true := hv
  rw [ht] at hv'
  obtain ⟨_, _, m, hle, _, hmax, _⟩ := hm (marks_received hm hv').1
  have hp' : w.progress view = (w.chunks ++ [endSeq]).length := hp
  rw [length_append, length_singleton] at hp'
  have := hmax view hview
  omega

theorem level_written (h : MarksInv views base epoch w) (hl : Level views w)
    (hview : view ∈ views) (hi : w.chunks[w.progress view]? = some endSeq) :
    Level views (w.written view) ↔ KeepsPace views w (.written view) := by
  rw [progress_written hi]
  obtain ⟨entry, ht, _, _⟩ := h
  have hlt := (List.getElem?_eq_some_iff.mp hi).1
  have hself : update w.progress view (w.progress view + 1) view = w.progress view + 1 :=
    update_self ..
  have hother : ∀ u, u ≠ view →
      update w.progress view (w.progress view + 1) u = w.progress u :=
    fun u hu => update_of_ne hu ..
  have hvalid := valid_noteWritten w.tracker (by rw [ht]; rfl) endSeq
  constructor
  · intro hl' _ hv hlast other hother' hne
    have := hl' (hvalid.trans hv) view hview (hself.trans hlast) other hother'
    exact (hother other hne).symm.trans this
  intro hk hv u hu hp other hother'
  have hv' := hvalid.symm.trans hv
  by_cases hlast : w.progress view + 1 = w.chunks.length
  · -- the view has the newest chunk, and so have the others
    by_cases hne : other = view
    · rw [hne]
      exact hself.trans hlast
    · exact (hother other hne).trans (hk hview hv' hlast other hother' hne)
  · -- the view is behind: so no view had written everything
    have hne : u ≠ view := by
      rintro rfl
      exact hlast (hself.symm.trans hp)
    have := hl hv' u hu ((hother u hne).symm.trans hp) view hview
    omega

theorem level_step (a : Action) (h : MarksInv views base epoch w) (hl : Level views w) :
    Level views (w.step views a) ↔ KeepsPace views w a := by
  cases a with
  | received endSeq => exact iff_of_true (level_received h endSeq) trivial
  | written view =>
    simp only [World.step]
    split
    · next hview =>
      cases hi : w.chunks[w.progress view]? with
      | none =>
        have hge := getElem?_eq_none_iff.mp hi
        have hw : w.written view = w := by
          unfold World.written
          rw [hi]
        rw [hw]
        refine iff_of_true hl fun _ _ hlast => ?_
        omega
      | some => exact level_written h hl hview hi
    · next hview => exact iff_of_true hl fun hview' => absurd hview' hview
  | invalidate =>
    obtain ⟨entry, ht, _, _⟩ := h
    refine iff_of_true (fun hv => ?_) trivial
    have hv' : (w.tracker.invalidateSeq.any SeqTrackerEntry.valid) = true := hv
    rw [ht] at hv'
    exact absurd hv' (by simp [SeqTracker.invalidateSeq])

/-- **Checkpoints of a session with several views**: in every run, every checkpoint that any view
could take shows all that its anchor says exactly if no view records the newest chunk, in a valid
tracker, before every other view has written it. -/
theorem anchors_sound_iff (views : List Nat) (base : Option Nat) (epoch : Nat)
    (as : List Action) :
    Along (World.step views) (AnchorsSound views) (World.init base epoch) as ↔
      StepsOk (World.step views) (KeepsPace views) (World.init base epoch) as := by
  refine along_iff_stepsOk (I := MarksInv views base epoch)
    (fun w a h => marksInv_step a h) (fun w a h hs => ?_) marksInv_init
    ((sound_iff_level marksInv_init).mpr fun _ _ _ _ _ _ => rfl) as
  rw [sound_iff_level (marksInv_step a h)]
  exact level_step a h ((sound_iff_level h).mp hs)

/-- two views, one chunk: the first view has written it, and the second takes a checkpoint -/
theorem slower_view_checkpoint : ¬ ∀ (views : List Nat) (base : Option Nat) (epoch : Nat)
    (as : List Action),
    Along (World.step views) (AnchorsSound views) (World.init base epoch) as := by
  intro h
  have hs := (h [0, 1] (some 5) 1 [.received 10, .written 0]).last
  have hw := hs 1 (by simp) none ⟨some ⟨80, 24, .normal⟩, none, some [], 0⟩
    ⟨1, 10, [], .normal, 80, 24, 0⟩ (by decide) 0 10 (by decide) (Nat.le_refl 10)
  cases hw

end

end MirrorViews

end CcPanes

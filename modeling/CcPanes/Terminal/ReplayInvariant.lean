import CcPanes.Terminal.ReplayBuffer
import Mathlib.Algebra.GroupWithZero.Nat

/-!
# The accounting of the replay buffer

`Accounting st b`: the buffer `b` is what is left of the stream `st` of all pushed bytes.  Every
operation keeps it (`accounting_apply`), so every run does (`accounting_replayAfter`), and the
claim about the counters, the window and the picture (`replayBuffer_accounting`) is read off.
-/

namespace CcPanes
open List
namespace ReplayBuffer

variable {b : ReplayBuffer} {st : Bytes}

/-- the counters, the window and the picture agree with the stream `st` -/
structure Accounting (st : Bytes) (b : ReplayBuffer) : Prop where
  isWindow : ChunkWindow.IsWindow st b.window
  pushed : b.pushedSeq = st.length
  bounded : b.totalBytes ≤ b.maxBytes
  photo : ∀ cp, b.checkpoint = some cp →
    cp.checkpointEpoch = b.epoch ∧ b.windowStartSeq ≤ cp.anchorSeq ∧ cp.anchorSeq ≤ b.pushedSeq

theorem accounting_new (maxBytes epoch : Nat) : Accounting [] (new maxBytes epoch) where
  isWindow := ChunkWindow.IsWindow.empty
  pushed := rfl
  bounded := Nat.zero_le _
  photo cp h := by cases h

theorem evicted_total_le (hw : ChunkWindow.IsWindow st b.window) :
    b.evicted.total ≤ b.maxBytes := by
  have hev : ChunkWindow.IsWindow st b.evicted := hw.popWhile _
  rcases ChunkWindow.popLoop_stop (fun _ total _ => total > b.maxBytes) b.window.chunks
    b.window.total b.window.start with h | ⟨front, rest, _, h⟩
  · have hnil : b.evicted.chunks = [] := h
    rw [hev.total, hnil]
    exact Nat.zero_le _
  · have hle : ¬ b.evicted.total > b.maxBytes := of_decide_eq_false h
    exact Nat.le_of_not_lt hle

theorem accounting_evictFront
    (hw : ChunkWindow.IsWindow st b.window) (hp : b.pushedSeq = st.length)
    (hcp : ∀ cp, b.checkpoint = some cp →
      cp.checkpointEpoch = b.epoch ∧ cp.anchorSeq ≤ b.pushedSeq) :
    Accounting st b.evictFront := by
  rw [evictFront_spec]
  refine ⟨hw.popWhile _, hp, evicted_total_le hw, ?_⟩
  intro cp h
  obtain ⟨hsome, hle⟩ := Option.filter_eq_some_iff.mp h
  obtain ⟨hep, hanchor⟩ := hcp cp hsome
  exact ⟨hep, of_decide_eq_true hle, hanchor⟩

theorem accounting_push (h : Accounting st b) (data : Bytes) :
    Accounting (st ++ data) (b.push data) := by
  unfold push
  by_cases hd : data = []
  · rw [if_pos hd, hd, append_nil]
    exact h
  rw [if_neg hd]
  refine accounting_evictFront (h.isWindow.push data) ?_ ?_
  · show b.pushedSeq + data.length = (st ++ data).length
    rw [h.pushed, length_append]
  · intro cp hcp
    obtain ⟨hep, _, hle⟩ := h.photo cp hcp
    exact ⟨hep, Nat.le_add_right_of_le hle⟩

theorem accounting_shrink (h : Accounting st b) (maxBytes : Nat) :
    Accounting st (b.shrink maxBytes) := by
  refine accounting_evictFront (b := { b with maxBytes := maxBytes }) h.isWindow h.pushed ?_
  intro cp hcp
  obtain ⟨hep, _, hle⟩ := h.photo cp hcp
  exact ⟨hep, hle⟩

/-- `trim_before_anchor` never drops a byte after the anchor: the `debug_assert!` at its end
holds for every anchor inside the window -/
theorem trimBeforeAnchor_start_le (b : ReplayBuffer) (anchorSeq : Nat)
    (h : b.windowStartSeq ≤ anchorSeq) :
    (b.trimBeforeAnchor anchorSeq).windowStartSeq ≤ anchorSeq :=
  ChunkWindow.popWhile_endsBefore_le anchorSeq b.window h

theorem accounting_storeCheckpoint (h : Accounting st b) (cp : TerminalCheckpoint) :
    Accounting st (b.storeCheckpoint cp).1 := by
  rcases storeCheckpoint_cases b cp with ⟨hsame, _⟩ | ⟨hep, hlo, hhi, heq⟩
  · rw [hsame]
    exact h
  rw [heq]
  refine ⟨h.isWindow.popWhile _, h.pushed, ?_, ?_⟩
  · exact Nat.le_trans (ChunkWindow.popWhile_total_le _ b.window) h.bounded
  intro cp' hcp'
  have e : cp' = cp := (Option.some.inj hcp').symm
  subst e
  exact ⟨hep, trimBeforeAnchor_start_le { b with checkpoint := some cp' } _ hlo, hhi⟩

/-- **Every operation keeps the accounting**, the stream growing by the bytes it pushes. -/
theorem accounting_apply (h : Accounting st b) (op : ReplayOp) :
    Accounting (st ++ op.data) (op.apply b) := by
  cases op with
  | push data => exact accounting_push h data
  | shrink maxBytes =>
    show Accounting (st ++ []) (b.shrink maxBytes)
    rw [append_nil]
    exact accounting_shrink h maxBytes
  | storeCheckpoint cp =>
    show Accounting (st ++ []) (b.storeCheckpoint cp).1
    rw [append_nil]
    exact accounting_storeCheckpoint h cp

theorem accounting_run (h : Accounting st b) (ops : List ReplayOp) :
    Accounting (st ++ pushedStream ops) (Run.run ReplayOp.apply b ops) := by
  induction ops generalizing st b with
  | nil =>
    show Accounting (st ++ []) b
    rwa [append_nil]
  | cons op ops ih =>
    have hrun := ih (accounting_apply h op)
    rwa [append_assoc] at hrun

theorem accounting_replayAfter (maxBytes epoch : Nat) (ops : List ReplayOp) :
    Accounting (pushedStream ops) (replayAfter maxBytes epoch ops) :=
  accounting_run (accounting_new maxBytes epoch) ops

/-! ## what never decreases, what never changes -/

theorem evictFront_epoch (b : ReplayBuffer) : b.evictFront.epoch = b.epoch := by
  rw [evictFront_spec]
  rfl

theorem apply_epoch (b : ReplayBuffer) (op : ReplayOp) : (op.apply b).epoch = b.epoch := by
  cases op with
  | push data =>
    show (b.push data).epoch = b.epoch
    unfold push
    split
    · rfl
    · exact evictFront_epoch _
  | shrink => exact evictFront_epoch _
  | storeCheckpoint cp =>
    rcases storeCheckpoint_cases b cp with ⟨hsame, _⟩ | ⟨_, _, _, heq⟩
    · exact congrArg epoch hsame
    · exact congrArg (fun r => r.1.epoch) heq

theorem replayAfter_epoch (maxBytes epoch : Nat) (ops : List ReplayOp) :
    (replayAfter maxBytes epoch ops).epoch = epoch :=
  Run.run_inv (I := fun b => b.epoch = epoch) (fun b op h => (apply_epoch b op).trans h) rfl ops

theorem windowStart_le_evictFront (b : ReplayBuffer) :
    b.windowStartSeq ≤ b.evictFront.windowStartSeq := by
  rw [evictFront_spec]
  exact ChunkWindow.start_le_popWhile _ b.window

theorem windowStart_le_apply (b : ReplayBuffer) (op : ReplayOp) :
    b.windowStartSeq ≤ (op.apply b).windowStartSeq := by
  cases op with
  | push data =>
    show b.windowStartSeq ≤ (b.push data).windowStartSeq
    unfold push
    split
    · exact Nat.le_refl _
    · exact windowStart_le_evictFront (b.appendChunk data)
  | shrink maxBytes => exact windowStart_le_evictFront { b with maxBytes := maxBytes }
  | storeCheckpoint cp =>
    show b.windowStartSeq ≤ (b.storeCheckpoint cp).1.windowStartSeq
    rcases storeCheckpoint_cases b cp with ⟨hsame, _⟩ | ⟨_, _, _, heq⟩
    · exact Nat.le_of_eq (congrArg windowStartSeq hsame).symm
    · rw [heq]
      exact ChunkWindow.start_le_popWhile _ b.window

theorem windowStart_le_run (b : ReplayBuffer) (ops : List ReplayOp) :
    b.windowStartSeq ≤ (Run.run ReplayOp.apply b ops).windowStartSeq :=
  Run.run_inv (I := fun b' => b.windowStartSeq ≤ b'.windowStartSeq)
    (fun b' op h => Nat.le_trans h (windowStart_le_apply b' op)) (Nat.le_refl _) ops

/-- **The invariants of the replay buffer over every run.**  After any operations `ops`, the
counters are the lengths they stand for, the chunks are the end of the pushed stream from the
window start on, the buffer fits, a held picture is of this epoch and anchored in the window;
over any further operations `more` the two sequence counters never decrease; and a rejected
`store_checkpoint` changes nothing. -/
theorem replayBuffer_accounting (maxBytes epoch : Nat) (ops : List ReplayOp) :
    let b := replayAfter maxBytes epoch ops
    b.totalBytes = (b.chunks.map length).sum ∧
    b.windowStartSeq ≤ b.pushedSeq ∧ b.pushedSeq - b.windowStartSeq = b.totalBytes ∧
    b.pushedSeq = (pushedStream ops).length ∧
    b.totalBytes ≤ b.maxBytes ∧
    b.chunks.flatten = (pushedStream ops).drop b.windowStartSeq ∧
    (∀ cp, b.checkpoint = some cp → cp.checkpointEpoch = b.epoch ∧ b.epoch = epoch ∧
      b.windowStartSeq ≤ cp.anchorSeq ∧ cp.anchorSeq ≤ b.pushedSeq) ∧
    (∀ more, b.pushedSeq ≤ (replayAfter maxBytes epoch (ops ++ more)).pushedSeq ∧
      b.windowStartSeq ≤ (replayAfter maxBytes epoch (ops ++ more)).windowStartSeq) ∧
    (∀ cp, (∀ a, (b.storeCheckpoint cp).2 ≠ .accepted a) → (b.storeCheckpoint cp).1 = b) := by
  intro b
  have h : Accounting (pushedStream ops) b := accounting_replayAfter maxBytes epoch ops
  have hstart : b.windowStartSeq ≤ b.pushedSeq := by
    rw [h.pushed]
    exact h.isWindow.start_le
  refine ⟨?_, hstart, ?_, h.pushed, h.bounded, h.isWindow.flatten, ?_, ?_, ?_⟩
  · rw [← length_flatten]
    exact h.isWindow.total
  · rw [h.pushed]
    exact h.isWindow.total_eq.symm
  · intro cp hcp
    obtain ⟨hep, hlo, hhi⟩ := h.photo cp hcp
    exact ⟨hep, replayAfter_epoch maxBytes epoch ops, hlo, hhi⟩
  · intro more
    constructor
    · rw [h.pushed, (accounting_replayAfter maxBytes epoch (ops ++ more)).pushed]
      simp [pushedStream]
    have happ : replayAfter maxBytes epoch (ops ++ more) = Run.run ReplayOp.apply b more :=
      Run.run_append _ _ _ _
    rw [happ]
    exact windowStart_le_run b more
  · intro cp hrej
    rcases storeCheckpoint_cases b cp with ⟨hsame, _⟩ | ⟨_, _, _, heq⟩
    · exact hsame
    · exact absurd (congrArg Prod.snd heq) (hrej cp.anchorSeq)

end ReplayBuffer
end CcPanes

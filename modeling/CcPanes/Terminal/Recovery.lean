import CcPanes.Terminal.ReplayInvariant
import Mathlib.Data.List.Infix

/-!
# Recovery from the replay buffer

What `recovery_snapshot` and `snapshot` rebuild.  A run is its list of operations `ops`;
`pushEnds` are the end sequence numbers of its pushes, and an anchor is on a boundary if it is
`0` or one of them.
-/

namespace CcPanes
open Run List Option

/-- the end sequence numbers of the pushes, the stream being `seq` long before them -/
def pushEnds (seq : Nat) : List ReplayOp → List Nat
  | [] => []
  | .push data :: ops => (seq + data.length) :: pushEnds (seq + data.length) ops
  | _ :: ops => pushEnds seq ops

/-- `0` or the end of a push -/
def OnBoundary (ops : List ReplayOp) (e : Nat) : Prop := e ∈ 0 :: pushEnds 0 ops

theorem pushEnds_append (seq : Nat) (ops ops' : List ReplayOp) :
    pushEnds seq (ops ++ ops')
      = pushEnds seq ops ++ pushEnds (seq + (pushedStream ops).length) ops' := by
  induction ops generalizing seq with
  | nil => rfl
  | cons op ops ih =>
    cases op with
    | push data =>
      show (seq + data.length) :: pushEnds (seq + data.length) (ops ++ ops')
        = (seq + data.length) :: (pushEnds (seq + data.length) ops
          ++ pushEnds (seq + (data ++ pushedStream ops).length) ops')
      rw [ih, length_append, Nat.add_assoc seq]
    | shrink => exact ih seq
    | storeCheckpoint => exact ih seq

theorem pushedStream_append (ops ops' : List ReplayOp) :
    pushedStream (ops ++ ops') = pushedStream ops ++ pushedStream ops' := by
  simp [pushedStream]

theorem onBoundary_push (ops : List ReplayOp) (data : Bytes) (e : Nat) :
    OnBoundary (ops ++ [.push data]) e
      ↔ OnBoundary ops e ∨ e = (pushedStream ops).length + data.length := by
  unfold OnBoundary
  rw [pushEnds_append, ← cons_append, mem_append, Nat.zero_add]
  show _ ∨ e ∈ [(pushedStream ops).length + data.length] ↔ _
  rw [mem_singleton]

theorem onBoundary_shrink (ops : List ReplayOp) (maxBytes e : Nat) :
    OnBoundary (ops ++ [.shrink maxBytes]) e ↔ OnBoundary ops e := by
  unfold OnBoundary
  rw [pushEnds_append]
  show e ∈ 0 :: (pushEnds 0 ops ++ []) ↔ _
  rw [append_nil]

theorem onBoundary_storeCheckpoint (ops : List ReplayOp) (cp : TerminalCheckpoint) (e : Nat) :
    OnBoundary (ops ++ [.storeCheckpoint cp]) e ↔ OnBoundary ops e := by
  unfold OnBoundary
  rw [pushEnds_append]
  show e ∈ 0 :: (pushEnds 0 ops ++ []) ↔ _
  rw [append_nil]

/-! ## the bounds of the window -/

namespace ReplayBuffer

variable {b : ReplayBuffer} {ops : List ReplayOp} {st : Bytes}

structure Bounded (ops : List ReplayOp) (b : ReplayBuffer) : Prop where
  accounting : Accounting (pushedStream ops) b
  bounds : ∀ e, b.windowStartSeq ≤ e → (e ∈ b.window.bounds ↔ OnBoundary ops e)
  anchored : ∀ cp, b.checkpoint = some cp → cp.anchorSeq ∈ b.window.bounds →
    b.windowStartSeq = cp.anchorSeq

theorem pushedSeq_eq (h : Accounting st b) :
    b.windowStartSeq + b.chunks.flatten.length = b.pushedSeq := by
  have hfl : b.chunks.flatten.length = st.length - b.windowStartSeq := by
    rw [show b.chunks.flatten = st.drop b.windowStartSeq from h.isWindow.flatten, length_drop]
  have hle : b.windowStartSeq ≤ st.length := h.isWindow.start_le
  rw [hfl, h.pushed]
  omega

theorem pushedSeq_mem_bounds (h : Accounting st b) : b.pushedSeq ∈ b.window.bounds := by
  rw [← pushedSeq_eq h]
  exact ChunkWindow.end_mem_boundsFrom b.windowStartSeq b.chunks

theorem bounded_new (maxBytes epoch : Nat) : Bounded [] (new maxBytes epoch) where
  accounting := accounting_new maxBytes epoch
  bounds _ _ := Iff.rfl
  anchored cp h := by cases h

theorem bounded_evictFront
    (hacc : Accounting (pushedStream ops) b.evictFront)
    (hb : ∀ e, b.windowStartSeq ≤ e → (e ∈ b.window.bounds ↔ OnBoundary ops e))
    (ha : ∀ cp, b.checkpoint = some cp → cp.anchorSeq ∈ b.window.bounds →
      b.windowStartSeq = cp.anchorSeq) : Bounded ops b.evictFront := by
  have hwin : b.evictFront.window = b.evicted := by rw [evictFront_spec]; rfl
  have hstart : b.evictFront.windowStartSeq = b.evicted.start := congrArg ChunkWindow.start hwin
  have hge : b.windowStartSeq ≤ b.evicted.start := ChunkWindow.start_le_popWhile _ b.window
  have hmem : ∀ e, b.evicted.start ≤ e → (e ∈ b.evicted.bounds ↔ e ∈ b.window.bounds) :=
    fun e he => ChunkWindow.mem_bounds_popWhile _ b.window e he
  refine ⟨hacc, ?_, ?_⟩
  · intro e he
    rw [hstart] at he
    rw [hwin, hmem e he]
    exact hb e (Nat.le_trans hge he)
  intro cp hcp hin
  have hcp' : b.checkpoint.filter (fun cp => decide (b.evicted.start ≤ cp.anchorSeq)) =
      some cp := by
    rw [evictFront_spec] at hcp
    exact hcp
  obtain ⟨hsome, hdec⟩ := filter_eq_some_iff.mp hcp'
  have hle : b.evicted.start ≤ cp.anchorSeq := of_decide_eq_true hdec
  rw [hwin, hmem _ hle] at hin
  have heq := ha cp hsome hin
  rw [hstart]
  omega

theorem bounded_push (h : Bounded ops b) (data : Bytes) :
    Bounded (ops ++ [.push data]) (b.push data) := by
  have hacc : Accounting (pushedStream (ops ++ [.push data])) (b.push data) := by
    rw [pushedStream_append]
    show Accounting (pushedStream ops ++ (data ++ [])) _
    rw [append_nil]
    exact accounting_push h.accounting data
  have hend := pushedSeq_mem_bounds h.accounting
  by_cases hd : data = []
  · have hsame : b.push data = b := by unfold push; rw [if_pos hd]
    rw [hsame] at hacc ⊢
    refine ⟨hacc, fun e he => ?_, h.anchored⟩
    rw [h.bounds e he, onBoundary_push, hd]
    constructor
    · exact .inl
    rintro (hin | e')
    · exact hin
    · have hp : e = b.pushedSeq := by rw [e', h.accounting.pushed]; rfl
      rw [← h.bounds e he, hp]
      exact hend
  have hpush : b.push data = (b.appendChunk data).evictFront := by unfold push; rw [if_neg hd]
  have hlen : 0 < data.length := length_pos_iff.mpr hd
  have hbounds : ∀ e, e ∈ (b.appendChunk data).window.bounds
      ↔ e ∈ b.window.bounds ∨ e = b.pushedSeq + data.length := by
    intro e
    show e ∈ ChunkWindow.boundsFrom b.windowStartSeq (b.chunks ++ [data]) ↔ _
    rw [ChunkWindow.boundsFrom_snoc, mem_append, mem_singleton, pushedSeq_eq h.accounting]
    rfl
  rw [hpush] at hacc ⊢
  refine bounded_evictFront hacc ?_ ?_
  · intro e he
    rw [hbounds, h.bounds e he, onBoundary_push, h.accounting.pushed]
  intro cp hcp hin
  obtain ⟨_, _, hle⟩ := h.accounting.photo cp hcp
  rcases (hbounds _).mp hin with hin | e
  · exact h.anchored cp hcp hin
  · omega

theorem bounded_shrink (h : Bounded ops b) (maxBytes : Nat) :
    Bounded (ops ++ [.shrink maxBytes]) (b.shrink maxBytes) := by
  have hacc : Accounting (pushedStream (ops ++ [.shrink maxBytes])) (b.shrink maxBytes) := by
    rw [pushedStream_append]
    show Accounting (pushedStream ops ++ []) _
    rw [append_nil]
    exact accounting_shrink h.accounting maxBytes
  refine bounded_evictFront (b := { b with maxBytes := maxBytes }) hacc ?_ h.anchored
  intro e he
  rw [onBoundary_shrink]
  exact h.bounds e he

theorem bounded_storeCheckpoint (h : Bounded ops b) (cp : TerminalCheckpoint) :
    Bounded (ops ++ [.storeCheckpoint cp]) (b.storeCheckpoint cp).1 := by
  have hstream : pushedStream (ops ++ [.storeCheckpoint cp]) = pushedStream ops := by
    rw [pushedStream_append]
    exact append_nil _
  have hacc : Accounting (pushedStream (ops ++ [.storeCheckpoint cp]))
      (b.storeCheckpoint cp).1 := by
    rw [hstream]
    exact accounting_storeCheckpoint h.accounting cp
  rcases storeCheckpoint_cases b cp with ⟨hsame, _⟩ | ⟨_, hlo, _, heq⟩
  · rw [hsame] at hacc ⊢
    refine ⟨hacc, fun e he => ?_, h.anchored⟩
    rw [onBoundary_storeCheckpoint]
    exact h.bounds e he
  rw [heq] at hacc ⊢
  have hmem : ∀ e, (b.window.popWhile (ChunkWindow.endsBefore cp.anchorSeq)).start ≤ e → _ :=
    fun e he =>
      ChunkWindow.mem_bounds_popWhile (ChunkWindow.endsBefore cp.anchorSeq) b.window e he
  refine ⟨hacc, fun e he => ?_, fun cp' hcp' hin => ?_⟩
  · rw [onBoundary_storeCheckpoint, ← h.bounds e
      (Nat.le_trans (ChunkWindow.start_le_popWhile _ b.window) he)]
    exact hmem e he
  · cases hcp'
    have hle := ChunkWindow.popWhile_endsBefore_le cp.anchorSeq b.window hlo
    exact ChunkWindow.popWhile_endsBefore_start cp.anchorSeq b.window hlo ((hmem _ hle).mp hin)

theorem replayAfter_snoc (maxBytes epoch : Nat) (ops : List ReplayOp) (op : ReplayOp) :
    replayAfter maxBytes epoch (ops ++ [op]) = op.apply (replayAfter maxBytes epoch ops) :=
  run_snoc _ _ _ _

/-- **Every reachable buffer is bounded.** -/
theorem bounded_replayAfter (maxBytes epoch : Nat) (ops : List ReplayOp) :
    Bounded ops (replayAfter maxBytes epoch ops) := by
  induction ops using history_induct with
  | hnil => exact bounded_new maxBytes epoch
  | hstep ops op ih =>
    rw [replayAfter_snoc]
    cases op with
    | push data => exact bounded_push ih data
    | shrink maxBytes' => exact bounded_shrink ih maxBytes'
    | storeCheckpoint cp => exact bounded_storeCheckpoint ih cp

/-! ## what the endpoints rebuild -/

theorem validCheckpoint_eq (h : Accounting st b) : b.validCheckpoint = b.checkpoint := by
  unfold validCheckpoint
  cases hcp : b.checkpoint with
  | none => rfl
  | some cp =>
    obtain ⟨hep, hlo, _⟩ := h.photo cp hcp
    simp [filter_some, hep, hlo]

/-- both endpoints rebuild the stream from the picture on, or the retained window -/
structure ExactRecovery (st : Bytes) (b : ReplayBuffer) : Prop where
  photo : ∀ cp, b.recoverySnapshot.checkpoint = some cp →
    b.recoverySnapshot.delta = st.drop cp.anchorSeq ∧
    b.recoverySnapshot.endSeq = cp.anchorSeq + b.recoverySnapshot.delta.length ∧
    b.snapshot.data = cp.snapshotAnsi ++ b.recoverySnapshot.delta
  window : b.recoverySnapshot.checkpoint = none →
    b.recoverySnapshot.delta = b.chunks.flatten ∧ b.snapshot.data = b.recoverySnapshot.delta

/-- the delta ends with every byte after the anchor -/
def KeepsTail (st : Bytes) (b : ReplayBuffer) : Prop :=
  ∀ cp, b.recoverySnapshot.checkpoint = some cp →
    st.drop cp.anchorSeq <:+ b.recoverySnapshot.delta

theorem snapshot_data (h : Accounting st b) :
    b.snapshot.data = (match b.checkpoint with
      | some cp => cp.snapshotAnsi
      | none => []) ++ b.chunks.flatten := by
  unfold snapshot
  rw [validCheckpoint_eq h]
  cases b.checkpoint <;> rfl

theorem recovery_some (h : Accounting st b) {cp : TerminalCheckpoint}
    (hcp : b.checkpoint = some cp) :
    b.recoverySnapshot.delta = (b.concatChunksFrom cp.anchorSeq).1 := by
  unfold recoverySnapshot
  rw [validCheckpoint_eq h, hcp]

theorem recovery_none (h : Accounting st b) (hcp : b.checkpoint = none) :
    b.recoverySnapshot.delta = b.chunks.flatten := by
  have hdelta : b.recoverySnapshot.delta = b.snapshot.data := by
    unfold recoverySnapshot
    rw [validCheckpoint_eq h, hcp]
  rw [hdelta, snapshot_data h, hcp]
  rfl

theorem recovery_suffix (h : Accounting st b) : b.recoverySnapshot.delta <:+ b.chunks.flatten := by
  cases hcp : b.checkpoint with
  | none =>
    rw [recovery_none h hcp]
  | some cp =>
    rw [recovery_some h hcp]
    exact ChunkWindow.concatFrom_isSuffix cp.anchorSeq b.windowStartSeq b.chunks

theorem recoveryAsserts_iff (h : Bounded ops b) :
    b.recoveryAsserts = false ↔ ∀ cp, b.checkpoint = some cp → OnBoundary ops cp.anchorSeq := by
  unfold recoveryAsserts
  rw [validCheckpoint_eq h.accounting]
  cases hcp : b.checkpoint with
  | none => exact ⟨nofun, fun _ => rfl⟩
  | some cp =>
    obtain ⟨_, hlo, hhi⟩ := h.accounting.photo cp hcp
    rw [← pushedSeq_eq h.accounting] at hhi
    have hcut := ChunkWindow.concatFrom_cut cp.anchorSeq b.windowStartSeq b.chunks hlo hhi
    have hbd : cp.anchorSeq ∈ ChunkWindow.boundsFrom b.windowStartSeq b.chunks
        ↔ OnBoundary ops cp.anchorSeq := h.bounds cp.anchorSeq hlo
    show (b.concatChunksFrom cp.anchorSeq).2 = false ↔ _
    rw [← Bool.not_eq_true, show b.concatChunksFrom cp.anchorSeq
      = ChunkWindow.concatFrom cp.anchorSeq b.windowStartSeq b.chunks from rfl, hcut,
      Decidable.not_not, hbd]
    constructor
    · rintro hon cp' e
      cases e
      exact hon
    · intro hall
      exact hall cp rfl

theorem keepsTail (h : Accounting st b) : KeepsTail st b := by
  intro cp hcp
  have hcp' : b.checkpoint = some cp := by rw [← validCheckpoint_eq h]; exact hcp
  obtain ⟨_, hlo, _⟩ := h.photo cp hcp'
  rw [recovery_some h hcp']
  have hsuf := ChunkWindow.concatFrom_suffix cp.anchorSeq b.windowStartSeq b.chunks
  have hfl : b.chunks.flatten = st.drop b.windowStartSeq := h.isWindow.flatten
  have hdrop : b.windowStartSeq + (cp.anchorSeq - b.windowStartSeq) = cp.anchorSeq := by omega
  rw [hfl, drop_drop, hdrop] at hsuf
  exact hsuf

theorem exactRecovery (h : Bounded ops b)
    (hon : ∀ cp, b.checkpoint = some cp → OnBoundary ops cp.anchorSeq) :
    ExactRecovery (pushedStream ops) b := by
  have hfl : b.chunks.flatten = (pushedStream ops).drop b.windowStartSeq :=
    h.accounting.isWindow.flatten
  constructor
  · intro cp hcp
    have hcp' : b.checkpoint = some cp := by rw [← validCheckpoint_eq h.accounting]; exact hcp
    obtain ⟨_, hlo, hhi⟩ := h.accounting.photo cp hcp'
    have hstart : b.windowStartSeq = cp.anchorSeq :=
      h.anchored cp hcp' ((h.bounds _ hlo).mpr (hon cp hcp'))
    have hdelta : b.recoverySnapshot.delta = b.chunks.flatten := by
      rw [recovery_some h.accounting hcp']
      exact congrArg Prod.fst
        (ChunkWindow.concatFrom_of_le cp.anchorSeq b.windowStartSeq b.chunks (by omega))
    refine ⟨?_, ?_, ?_⟩
    · rw [hdelta, hfl, hstart]
    · show b.pushedSeq = _
      rw [hdelta, ← hstart]
      exact (pushedSeq_eq h.accounting).symm
    · rw [snapshot_data h.accounting, hcp', hdelta]
  · intro hnone
    have hnone' : b.checkpoint = none := by rw [← validCheckpoint_eq h.accounting]; exact hnone
    refine ⟨recovery_none h.accounting hnone', ?_⟩
    rw [recovery_none h.accounting hnone', snapshot_data h.accounting, hnone']
    rfl

/-! ## runs -/

/-- every picture the run stores is anchored on a boundary at that time -/
def AnchorsOnBoundary (maxBytes epoch : Nat) (ops : List ReplayOp) : Prop :=
  ∀ pre cp post, ops = pre ++ .storeCheckpoint cp :: post →
    ((replayAfter maxBytes epoch pre).storeCheckpoint cp).2 = .accepted cp.anchorSeq →
    OnBoundary pre cp.anchorSeq

/-- the specification of recovery, at every point of the run: exact if all pictures so far are
anchored on a boundary; and for any anchors, nothing after the anchor is lost and the assertion
is not reached -/
def RecoveryClaim (maxBytes epoch : Nat) (ops : List ReplayOp) : Prop :=
  ∀ pre post, ops = pre ++ post →
    (AnchorsOnBoundary maxBytes epoch pre →
      ExactRecovery (pushedStream pre) (replayAfter maxBytes epoch pre)) ∧
    KeepsTail (pushedStream pre) (replayAfter maxBytes epoch pre) ∧
    (replayAfter maxBytes epoch pre).recoveryAsserts = false

theorem held_step (maxBytes epoch : Nat) (ops : List ReplayOp) (op : ReplayOp)
    (hheld : ∀ cp, (replayAfter maxBytes epoch ops).checkpoint = some cp →
      OnBoundary ops cp.anchorSeq) :
    (∀ cp, (replayAfter maxBytes epoch (ops ++ [op])).checkpoint = some cp →
      OnBoundary (ops ++ [op]) cp.anchorSeq) ↔
    (∀ cp, op = .storeCheckpoint cp →
      ((replayAfter maxBytes epoch ops).storeCheckpoint cp).2 = .accepted cp.anchorSeq →
      OnBoundary ops cp.anchorSeq) := by
  rw [replayAfter_snoc]
  have hevict : ∀ b : ReplayBuffer, ∀ cp, b.evictFront.checkpoint = some cp →
      b.checkpoint = some cp := by
    intro b cp hcp
    rw [evictFront_spec] at hcp
    exact (filter_eq_some_iff.mp hcp).1
  cases op with
  | push data =>
    refine ⟨nofun, fun _ cp hcp => ?_⟩
    rw [onBoundary_push]
    refine .inl (hheld cp ?_)
    change ((replayAfter maxBytes epoch ops).push data).checkpoint = some cp at hcp
    unfold push at hcp
    split at hcp
    · exact hcp
    · exact hevict ((replayAfter maxBytes epoch ops).appendChunk data) cp hcp
  | shrink maxBytes' =>
    refine ⟨nofun, fun _ cp hcp => ?_⟩
    rw [onBoundary_shrink]
    exact hheld cp (hevict { replayAfter maxBytes epoch ops with maxBytes := maxBytes' } cp hcp)
  | storeCheckpoint cp0 =>
    show (∀ cp, ((replayAfter maxBytes epoch ops).storeCheckpoint cp0).1.checkpoint = some cp →
      _) ↔ _
    rcases storeCheckpoint_cases (replayAfter maxBytes epoch ops) cp0 with
      ⟨hsame, hrej⟩ | ⟨_, _, _, heq⟩
    · rw [hsame]
      refine ⟨fun _ cp e hacc => ?_, fun _ cp hcp => ?_⟩
      · obtain rfl := ReplayOp.storeCheckpoint.inj e
        exact absurd hacc (hrej _)
      · rw [onBoundary_storeCheckpoint]
        exact hheld cp hcp
    · rw [heq]
      refine ⟨fun hall cp e _ => ?_, fun hP cp hcp => ?_⟩
      · obtain rfl := ReplayOp.storeCheckpoint.inj e
        exact (onBoundary_storeCheckpoint ops cp0 _).mp (hall cp0 rfl)
      · cases hcp
        rw [onBoundary_storeCheckpoint]
        exact hP cp0 rfl (congrArg Prod.snd heq)

theorem held_iff (maxBytes epoch : Nat) (ops : List ReplayOp) :
    (∀ pre post, ops = pre ++ post → ∀ cp,
      (replayAfter maxBytes epoch pre).checkpoint = some cp → OnBoundary pre cp.anchorSeq) ↔
    AnchorsOnBoundary maxBytes epoch ops := by
  have h : Along extend (fun pre => ∀ cp, (replayAfter maxBytes epoch pre).checkpoint = some cp →
        OnBoundary pre cp.anchorSeq) [] ops ↔
      StepsOk extend (fun pre op => ∀ cp, op = .storeCheckpoint cp →
        ((replayAfter maxBytes epoch pre).storeCheckpoint cp).2 = .accepted cp.anchorSeq →
        OnBoundary pre cp.anchorSeq) [] ops :=
    along_iff_stepsOk (I := fun _ => True) (fun _ _ _ => trivial)
      (fun pre op _ hq => held_step maxBytes epoch pre op hq) trivial (fun cp e => by cases e) ops
  rw [along_iff, stepsOk_iff] at h
  simp only [run_extend, nil_append] at h
  rw [h]
  constructor
  · intro hP pre cp post e
    exact hP pre _ post e cp rfl
  · rintro hA pre op post e cp rfl
    exact hA pre cp post e

/-- **Recovery over every run.**  For any anchors nothing after the anchor is lost, and as long as
the stored pictures are anchored on boundaries both endpoints are exact; a run meets the whole
specification, the assertion included, exactly if every picture it stores is anchored at `0` or
at the end of an earlier push. -/
theorem recoveryClaim_iff (maxBytes epoch : Nat) (ops : List ReplayOp) :
    ((AnchorsOnBoundary maxBytes epoch ops →
        ExactRecovery (pushedStream ops) (replayAfter maxBytes epoch ops)) ∧
      KeepsTail (pushedStream ops) (replayAfter maxBytes epoch ops)) ∧
    (RecoveryClaim maxBytes epoch ops ↔ AnchorsOnBoundary maxBytes epoch ops) := by
  have hexact : ∀ pre, AnchorsOnBoundary maxBytes epoch pre →
      ExactRecovery (pushedStream pre) (replayAfter maxBytes epoch pre) := fun pre hpre =>
    exactRecovery (bounded_replayAfter maxBytes epoch pre)
      ((held_iff maxBytes epoch pre).mpr hpre pre [] (append_nil _).symm)
  have htail : ∀ pre, KeepsTail (pushedStream pre) (replayAfter maxBytes epoch pre) := fun pre =>
    keepsTail (accounting_replayAfter maxBytes epoch pre)
  refine ⟨⟨hexact ops, htail ops⟩, ?_⟩
  rw [← held_iff]
  constructor
  · intro h pre post e
    exact (recoveryAsserts_iff (bounded_replayAfter maxBytes epoch pre)).mp (h pre post e).2.2
  · intro h pre post e
    exact ⟨hexact pre, htail pre,
      (recoveryAsserts_iff (bounded_replayAfter maxBytes epoch pre)).mpr (h pre post e)⟩

def midChunkRun : List ReplayOp :=
  [.push [0x61, 0x62, 0x63], .storeCheckpoint ⟨1, 1, [], .normal, 80, 24, 0⟩]

/-- the picture is accepted and the next recovery reaches the assertion -/
theorem midChunkRun_asserts : ¬ RecoveryClaim 1024 1 midChunkRun := by
  intro h
  have hfalse := (h midChunkRun [] (append_nil _).symm).2.2
  cases hfalse

end ReplayBuffer
end CcPanes

import CcPanes.Foundation.FiniteMap
import CcPanes.Foundation.Run
import Mathlib.Algebra.BigOperators.Ring.Finset
import Mathlib.Data.List.Induction

/-!
# Counting the input characters

`record_input_chars` and `flush_pending` of `usage_stats_service.rs`, and `upsert_pty_inputs` of
`usage_stats_repo.rs`.  The counts wait in a map.  A flush takes the whole map and writes its
entries one by one; it stops at the first statement that fails, and what it has not written is gone.
-/

namespace CcPanes
open FiniteMap Option

structure UsageKey where
  date : String
  cliTool : String
  workspaceName : String
deriving DecidableEq

/-- `char_count` is a `u64`; the token fields of a PTY delta are zero -/
structure UsageStatsDelta where
  key : UsageKey
  charCount : Nat
deriving DecidableEq

structure RunningFlush where
  next : UsageStatsDelta
  rest : List UsageStatsDelta

def RunningFlush.deltas (flush : RunningFlush) : List UsageStatsDelta := flush.next :: flush.rest

structure UsageCounting where
  pendingInputs : FiniteMap UsageKey Nat
  /-- `char_count` of the rows of the source `_pty`; `none`: no integer any more -/
  rows : FiniteMap UsageKey (Option Int)
  flushes : List RunningFlush
  /-- the sum of all counts that were recorded -/
  recorded : Nat

inductive UsageAction where
  /-- `key` is what `today_string` and `resolve_pty_context` give -/
  | recordInputChars (key : UsageKey) (charCount : UInt32)
  /-- a flush takes the map; its entries come in some order -/
  | flushPending (deltas : List UsageStatsDelta)
  /-- a running flush executes its next statement -/
  | upsertPtyInput (i : Nat) (ok : Bool)

namespace UsageCounting

variable {flushes : List RunningFlush} {rows : FiniteMap UsageKey (Option Int)} {i : Nat}
  {rest : List UsageStatsDelta}

def start : UsageCounting := ⟨∅, ∅, [], 0⟩

def asI64 (n : Nat) : Int := Int.bmod n (2 ^ 64)

/-- `char_count + excluded.char_count`, which is a float when it does not fit -/
def sqlAdd (charCount : Option Int) (excluded : Int) : Option Int :=
  charCount.bind fun n =>
    if -2 ^ 63 ≤ n + excluded ∧ n + excluded < 2 ^ 63 then some (n + excluded) else none

def upsertRow (rows : FiniteMap UsageKey (Option Int)) (delta : UsageStatsDelta) :
    FiniteMap UsageKey (Option Int) :=
  match rows.lookup delta.key with
  | none => rows.insert delta.key (some (asI64 delta.charCount))
  | some charCount => rows.insert delta.key (sqlAdd charCount (asI64 delta.charCount))

def recordInputChars (s : UsageCounting) (key : UsageKey) (charCount : UInt32) : UsageCounting :=
  if charCount = 0 then s
  else
    { s with
      pendingInputs := s.pendingInputs.insert key
        (((s.pendingInputs.lookup key).getD 0 + charCount.toNat) % 2 ^ 64)
      recorded := s.recorded + charCount.toNat }

def deltas (pending : FiniteMap UsageKey Nat) : List UsageStatsDelta :=
  pending.entries.map fun e => ⟨e.1, e.2⟩

def flushPending (s : UsageCounting) (taken : List UsageStatsDelta) : UsageCounting :=
  if taken.Perm (deltas s.pendingInputs) then
    match taken with
    | [] => s
    | next :: rest => { s with pendingInputs := ∅, flushes := s.flushes ++ [⟨next, rest⟩] }
  else s

/-- a flush that has nothing left to write returns -/
def continueFlush (flushes : List RunningFlush) (i : Nat) :
    List UsageStatsDelta → List RunningFlush
  | [] => flushes.eraseIdx i
  | next :: rest => flushes.set i ⟨next, rest⟩

def upsertPtyInput (s : UsageCounting) (i : Nat) (ok : Bool) : UsageCounting :=
  match s.flushes[i]? with
  | none => s
  | some ⟨delta, rest⟩ =>
    if delta.charCount = 0 then { s with flushes := continueFlush s.flushes i rest }
    else if ok then
      { s with
        rows := upsertRow s.rows delta
        flushes := continueFlush s.flushes i rest }
    -- `?` leaves the loop over the deltas
    else { s with flushes := s.flushes.eraseIdx i }

def step (s : UsageCounting) : UsageAction → UsageCounting
  | .recordInputChars key charCount => s.recordInputChars key charCount
  | .flushPending taken => s.flushPending taken
  | .upsertPtyInput i ok => s.upsertPtyInput i ok

def Quiet (s : UsageCounting) : Prop := s.flushes = []

instance : DecidablePred Quiet := fun s =>
  decidable_of_iff (s.flushes.isEmpty = true) List.isEmpty_iff

def persisted (rows : FiniteMap UsageKey (Option Int)) : Int := total (fun n => n.getD 0) rows

def Conserved (s : UsageCounting) : Prop :=
  (∀ e ∈ s.rows.entries, e.2.isSome = true) ∧
    persisted s.rows + (total id s.pendingInputs : Nat) = s.recorded

instance : DecidablePred Conserved := fun s =>
  inferInstanceAs (Decidable ((∀ e ∈ s.rows.entries, e.2.isSome = true) ∧ _))

def Succeeds (s : UsageCounting) : UsageAction → Prop
  | .upsertPtyInput i ok => ok = true ∨ s.flushes[i]? = none
  | _ => True

instance (s : UsageCounting) : DecidablePred s.Succeeds
  | .recordInputChars .. => .isTrue trivial
  | .flushPending _ => .isTrue trivial
  | .upsertPtyInput i ok =>
    match ok, h : s.flushes[i]? with
    | true, _ => .isTrue (.inl rfl)
    | false, none => .isTrue (.inr h)
    | false, some _ => .isFalse fun hs => hs.elim nofun fun hn => nomatch h.symm.trans hn

/-! ## sums -/

def unwritten (deltas : List UsageStatsDelta) : Nat := (deltas.map UsageStatsDelta.charCount).sum

def flushing (flushes : List RunningFlush) : Nat :=
  (flushes.map fun flush => unwritten flush.deltas).sum

theorem flushing_cons (flush : RunningFlush) (flushes : List RunningFlush) :
    flushing (flush :: flushes) = unwritten flush.deltas + flushing flushes := rfl

theorem unwritten_deltas (pending : FiniteMap UsageKey Nat) :
    unwritten (deltas pending) = total id pending := by
  unfold unwritten deltas total
  rw [List.map_map]
  rfl

theorem flushing_snoc (flushes : List RunningFlush) (flush : RunningFlush) :
    flushing (flushes ++ [flush]) = flushing flushes + unwritten flush.deltas := by
  unfold flushing
  rw [List.map_append, List.sum_append, List.map_singleton, List.sum_singleton]

theorem flushing_eraseIdx {flush : RunningFlush} (h : flushes[i]? = some flush) :
    flushing (flushes.eraseIdx i) + unwritten flush.deltas = flushing flushes := by
  induction flushes generalizing i with
  | nil => cases h
  | cons d flushes ih =>
    cases i with
    | zero =>
      cases h
      rw [List.eraseIdx_cons_zero, flushing_cons, Nat.add_comm]
    | succ =>
      rw [List.eraseIdx_cons_succ, flushing_cons, flushing_cons, Nat.add_assoc, ih h]

theorem flushing_set {flush : RunningFlush} (h : flushes[i]? = some flush) (flush' : RunningFlush) :
    flushing (flushes.set i flush') + unwritten flush.deltas =
      flushing flushes + unwritten flush'.deltas := by
  induction flushes generalizing i with
  | nil => cases h
  | cons d flushes ih =>
    cases i with
    | zero =>
      cases h
      rw [List.set_cons_zero, flushing_cons, flushing_cons]
      omega
    | succ =>
      have := ih h
      rw [List.set_cons_succ, flushing_cons, flushing_cons]
      omega

theorem flushing_continueFlush {delta : UsageStatsDelta} (h : flushes[i]? = some ⟨delta, rest⟩) :
    flushing (continueFlush flushes i rest) + delta.charCount = flushing flushes := by
  cases rest with
  | nil => exact flushing_eraseIdx h
  | cons next rest =>
    have hset : _ + (delta.charCount + unwritten (next :: rest)) =
      flushing flushes + unwritten (next :: rest) := flushing_set h ⟨next, rest⟩
    show flushing (flushes.set i ⟨next, rest⟩) + _ = _
    omega

theorem mem_continueFlush {flush : RunningFlush} (h : flush ∈ continueFlush flushes i rest) :
    flush ∈ flushes ∨ flush.deltas = rest := by
  cases rest with
  | nil => exact .inl (List.mem_of_mem_eraseIdx h)
  | cons =>
    refine (List.mem_or_eq_of_mem_set h).imp_right fun hset => ?_
    rw [hset]
    rfl

/-! ## what becomes of the counts -/

def rowCount (n : Option Int) : Nat := (n.getD 0).toNat

def Natural (rows : FiniteMap UsageKey (Option Int)) : Prop :=
  ∀ e ∈ rows.entries, ∃ n : Nat, e.2 = some (n : Int)

structure Accounted (s : UsageCounting) (dropped : Nat) : Prop where
  rows : Natural s.rows
  pending : ∀ e ∈ s.pendingInputs.entries, 0 < e.2
  flushes : ∀ flush ∈ s.flushes, ∀ delta ∈ flush.deltas, 0 < delta.charCount
  balance : total rowCount s.rows + total id s.pendingInputs + flushing s.flushes + dropped =
    s.recorded

theorem persisted_eq (h : Natural rows) : persisted rows = (total rowCount rows : Nat) := by
  unfold persisted total
  rw [Nat.cast_list_sum, List.map_map]
  refine congrArg List.sum (List.map_congr_left fun e he => ?_)
  obtain ⟨n, hn⟩ := h e he
  show e.2.getD 0 = (rowCount e.2 : Nat)
  rw [hn]
  rfl

theorem asI64_of_lt {n : Nat} (h : n < 2 ^ 63) : asI64 n = n := by
  unfold asI64
  rw [Int.bmod_def]
  omega

theorem Natural.insert (h : Natural rows) (key : UsageKey) (n : Nat) :
    Natural (rows.insert key (some (n : Int))) := by
  intro e he
  rw [← lookup_eq_some_iff, lookup_insert_eq_some_iff] at he
  obtain ⟨-, he⟩ | ⟨-, he⟩ := he
  · exact ⟨n, he⟩
  · exact h e (lookup_eq_some_iff.mp he)

theorem upsertRow_spec (delta : UsageStatsDelta) (h : Natural rows)
    (hlt : total rowCount rows + delta.charCount < 2 ^ 63) :
    Natural (upsertRow rows delta) ∧
      total rowCount (upsertRow rows delta) = total rowCount rows + delta.charCount := by
  have hle := weight_le_total rowCount rows delta.key
  have hinto : ∀ n : Nat, total rowCount (rows.insert delta.key (some (n : Int))) +
      weight rowCount rows delta.key = total rowCount rows + n :=
    fun n => total_insert rowCount rows delta.key (some (n : Int))
  unfold upsertRow
  rw [asI64_of_lt (by omega)]
  unfold weight at hle hinto
  cases hrow : rows.lookup delta.key with
  | none =>
    rw [hrow] at hinto
    exact ⟨h.insert delta.key _, hinto delta.charCount⟩
  | some charCount =>
    obtain ⟨n, rfl⟩ := h ⟨delta.key, charCount⟩ (lookup_eq_some_iff.mp hrow)
    rw [hrow] at hinto hle
    have hn : n ≤ total rowCount rows := hle
    have hadd : sqlAdd (some (n : Int)) delta.charCount =
        some ((n + delta.charCount : Nat) : Int) := by
      unfold sqlAdd
      rw [bind_some, if_pos (by omega), Nat.cast_add]
    simp only [hadd]
    refine ⟨h.insert delta.key _, ?_⟩
    have htotal : _ + n = total rowCount rows + (n + delta.charCount) := hinto (n + delta.charCount)
    omega

theorem recorded_step (s : UsageCounting) (action : UsageAction) :
    s.recorded ≤ (s.step action).recorded := by
  cases action with
  | recordInputChars key charCount =>
    show s.recorded ≤ (s.recordInputChars key charCount).recorded
    unfold recordInputChars
    split
    · exact Nat.le_refl _
    · exact Nat.le_add_right _ _
  | flushPending taken =>
    show s.recorded ≤ (s.flushPending taken).recorded
    unfold flushPending
    split
    · cases taken <;> exact Nat.le_refl _
    · exact Nat.le_refl _
  | upsertPtyInput i ok =>
    show s.recorded ≤ (s.upsertPtyInput i ok).recorded
    unfold upsertPtyInput
    split
    · exact Nat.le_refl _
    · split
      · exact Nat.le_refl _
      · split <;> exact Nat.le_refl _

theorem accounted_start : start.Accounted 0 where
  rows _ h := nomatch h
  pending _ h := nomatch h
  flushes _ h := nomatch h
  balance := rfl

namespace Accounted
variable {s : UsageCounting} {dropped : Nat}

section
variable (h : s.Accounted dropped)
include h

theorem record (key : UsageKey) (charCount : UInt32)
    (hlt : (s.recordInputChars key charCount).recorded < 2 ^ 63) :
    (s.recordInputChars key charCount).Accounted dropped := by
  unfold recordInputChars at hlt ⊢
  by_cases h0 : charCount = 0
  · rw [if_pos h0]
    exact h
  rw [if_neg h0] at hlt ⊢
  have hpos : 0 < charCount.toNat :=
    Nat.pos_of_ne_zero fun hzero => h0 (UInt32.toNat_inj.mp hzero)
  have hbalance := h.balance
  have hle := weight_le_total id s.pendingInputs key
  have hinto := total_insert id s.pendingInputs key
    ((s.pendingInputs.lookup key).getD 0 + charCount.toNat)
  unfold weight at hle hinto
  rw [map_id_fun, id] at hle hinto
  have hlt : s.recorded + charCount.toNat < 2 ^ 63 := hlt
  rw [Nat.mod_eq_of_lt (by omega)]
  refine ⟨h.rows, fun e he => ?_, h.flushes, ?_⟩
  · rw [← lookup_eq_some_iff, lookup_insert_eq_some_iff] at he
    obtain ⟨-, he⟩ | ⟨-, he⟩ := he
    · rw [he]
      omega
    · exact h.pending e (lookup_eq_some_iff.mp he)
  · show total rowCount s.rows + total id (s.pendingInputs.insert key _) + flushing s.flushes +
      dropped = s.recorded + charCount.toNat
    rw [id] at hinto
    omega

theorem flush (taken : List UsageStatsDelta) :
    (s.flushPending taken).Accounted dropped := by
  unfold flushPending
  split
  next hperm =>
    cases taken with
    | nil => exact h
    | cons next rest =>
      have hsum : unwritten (next :: rest) = total id s.pendingInputs := by
        rw [← unwritten_deltas]
        exact (hperm.map UsageStatsDelta.charCount).sum_eq
      have hbalance := h.balance
      refine ⟨h.rows, nofun,
        fun flush hflush delta hdelta => ?_, ?_⟩
      · obtain hflush | hflush := List.mem_append.mp hflush
        · exact h.flushes flush hflush delta hdelta
        -- the new flush writes what was pending
        rw [List.mem_singleton.mp hflush] at hdelta
        obtain ⟨e, he, rfl⟩ := List.mem_map.mp (hperm.mem_iff.mp hdelta)
        exact h.pending e he
      · have hflushing : _ = _ + unwritten (next :: rest) := flushing_snoc s.flushes ⟨next, rest⟩
        show total rowCount s.rows + total id (∅ : FiniteMap UsageKey Nat) +
          flushing (s.flushes ++ [⟨next, rest⟩]) + dropped = s.recorded
        rw [total_empty]
        omega
  next => exact h

theorem continueFlush_pos {i : Nat} {delta : UsageStatsDelta} {rest : List UsageStatsDelta}
    (hi : s.flushes[i]? = some ⟨delta, rest⟩) :
    ∀ flush ∈ continueFlush s.flushes i rest, ∀ delta ∈ flush.deltas, 0 < delta.charCount := by
  intro flush hflush delta' hdelta
  obtain hflush | hflush := mem_continueFlush hflush
  · exact h.flushes flush hflush delta' hdelta
  · rw [hflush] at hdelta
    exact h.flushes _ (List.mem_of_getElem? hi) delta' (List.mem_cons_of_mem _ hdelta)

theorem upsert (hlt : s.recorded < 2 ^ 63) (i : Nat) (ok : Bool) :
    ∃ more, (s.upsertPtyInput i ok).Accounted (dropped + more) ∧
      (more = 0 ↔ s.Succeeds (.upsertPtyInput i ok)) := by
  have hbalance := h.balance
  unfold upsertPtyInput Succeeds
  cases hi : s.flushes[i]? with
  | none => exact ⟨0, h, fun _ => .inr hi, fun _ => rfl⟩
  | some flush =>
    obtain ⟨delta, rest⟩ := flush
    have hpos : 0 < delta.charCount :=
      h.flushes _ (List.mem_of_getElem? hi) delta List.mem_cons_self
    dsimp only
    rw [if_neg (by omega)]
    cases ok with
    | true =>
      have hcontinue := flushing_continueFlush hi
      obtain ⟨hrows, htotal⟩ := upsertRow_spec delta h.rows (by omega)
      refine ⟨0, ⟨hrows, h.pending, h.continueFlush_pos hi, ?_⟩, fun _ => .inl rfl, fun _ => rfl⟩
      show total rowCount (upsertRow s.rows delta) + total id s.pendingInputs +
        flushing (continueFlush s.flushes i rest) + (dropped + 0) = s.recorded
      omega
    | false =>
      have herase : _ + (delta.charCount + unwritten rest) = _ := flushing_eraseIdx hi
      refine ⟨delta.charCount + unwritten rest,
        ⟨h.rows, h.pending, fun flush hf => h.flushes flush (List.mem_of_mem_eraseIdx hf), ?_⟩,
        fun h0 => by omega, fun hs => ?_⟩
      · show total rowCount s.rows + total id s.pendingInputs + flushing (s.flushes.eraseIdx i) +
          (dropped + _) = s.recorded
        omega
      · obtain hs | hs := hs
        · cases hs
        · cases hi.symm.trans hs

theorem step (action : UsageAction) (hlt : (s.step action).recorded < 2 ^ 63) :
    ∃ more, (s.step action).Accounted (dropped + more) ∧ (more = 0 ↔ s.Succeeds action) := by
  cases action with
  | recordInputChars key charCount =>
    exact ⟨0, h.record key charCount hlt, fun _ => trivial, fun _ => rfl⟩
  | flushPending taken => exact ⟨0, h.flush taken, fun _ => trivial, fun _ => rfl⟩
  | upsertPtyInput i ok => exact h.upsert ((recorded_step s _).trans_lt hlt) i ok

theorem conserved_iff (hquiet : s.Quiet) :
    s.Conserved ↔ dropped = 0 := by
  have hbalance := h.balance
  have hsome : ∀ e ∈ s.rows.entries, e.2.isSome = true := by
    intro e he
    obtain ⟨n, hn⟩ := h.rows e he
    rw [hn]
    rfl
  have hflushing : flushing s.flushes = 0 := by
    rw [hquiet]
    rfl
  unfold Conserved
  rw [persisted_eq h.rows, and_iff_right hsome]
  omega

end

end Accounted

theorem run_accounted (actions : List UsageAction)
    (hlt : (Run.run step start actions).recorded < 2 ^ 63) :
    ∃ dropped, (Run.run step start actions).Accounted dropped ∧
      (dropped = 0 ↔ Run.StepsOk step Succeeds start actions) := by
  induction actions using List.reverseRecOn with
  | nil => exact ⟨0, accounted_start, fun _ => trivial, fun _ => rfl⟩
  | append_singleton actions action ih =>
    rw [Run.run_snoc] at hlt ⊢
    obtain ⟨dropped, h, hdropped⟩ := ih ((recorded_step _ action).trans_lt hlt)
    obtain ⟨more, h', hmore⟩ := h.step action hlt
    refine ⟨dropped + more, h', ?_⟩
    rw [Nat.add_eq_zero_iff, hdropped, hmore, Run.stepsOk_snoc]

/-- While less than `2^63` characters were recorded, nothing is lost exactly when no statement of a
flush has failed: the map is emptied before it is written, and nothing puts the rest back. -/
theorem input_counting_conserved (actions : List UsageAction)
    (hlt : (Run.run step start actions).recorded < 2 ^ 63)
    (hquiet : (Run.run step start actions).Quiet) :
    (Run.run step start actions).Conserved ↔ Run.StepsOk step Succeeds start actions := by
  obtain ⟨dropped, h, hdropped⟩ := run_accounted actions hlt
  rw [h.conserved_iff hquiet, hdropped]

def claudeKey : UsageKey := ⟨"2025-01-01", "claude", "ws"⟩

def codexKey : UsageKey := ⟨"2025-01-01", "codex", "ws"⟩

def recordedDuringFlush : List UsageAction :=
  [.recordInputChars claudeKey 5, .recordInputChars codexKey 7,
    .flushPending [⟨claudeKey, 5⟩, ⟨codexKey, 7⟩], .upsertPtyInput 0 true,
    .recordInputChars claudeKey 2, .upsertPtyInput 0 true]

theorem recordedDuringFlush_conserved :
    (Run.run step start recordedDuringFlush).Conserved :=
  (input_counting_conserved recordedDuringFlush (by decide +kernel)
    (by decide +kernel)).mpr (by decide +kernel)

/-- the first statement of the flush fails, and with it the second delta is gone as well -/
def failedFlush : List UsageAction :=
  [.recordInputChars claudeKey 5, .recordInputChars codexKey 7,
    .flushPending [⟨claudeKey, 5⟩, ⟨codexKey, 7⟩], .upsertPtyInput 0 false]

theorem failedFlush_loses :
    (Run.run step start failedFlush).Quiet ∧ (Run.run step start failedFlush).recorded = 12 ∧
      persisted (Run.run step start failedFlush).rows = 0 ∧
      total id (Run.run step start failedFlush).pendingInputs = 0 ∧
      ¬(Run.run step start failedFlush).Conserved := by
  decide +kernel

end UsageCounting

end CcPanes

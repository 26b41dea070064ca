import CcPanes.Daemon.DaemonWorld

/-!
# What a step writes

The effects of the handlers and of the reaper, map by map: what an entry that is there after an
effect was before it, and which effects remove an entry.
-/

namespace CcPanes
namespace Daemon

variable {d : Daemon} {e : Effect} {id : String}

theorem alive_iff {s : DaemonState} :
    s.alive id = true ↔ ∃ b ∈ s.sessions, b.sessionId = id ∧ b.status ≠ .exited := by
  unfold DaemonState.alive
  rw [List.any_eq_true]
  constructor
  · rintro ⟨b, hb, h⟩
    obtain ⟨hid, hstatus⟩ := Bool.and_eq_true_iff.mp h
    exact ⟨b, hb, of_decide_eq_true hid, of_decide_eq_true hstatus⟩
  · rintro ⟨b, hb, hid, hstatus⟩
    exact ⟨b, hb, Bool.and_eq_true_iff.mpr ⟨decide_eq_true hid, decide_eq_true hstatus⟩⟩

/-! ## what an effect leaves in the maps -/

theorem sessions_perform {b : BackendSession} (h : b ∈ (d.perform e).state.sessions) :
    b ∈ d.state.sessions ∨ e = .register b.sessionId b.status := by
  cases e with
  | register =>
    obtain h | h := List.mem_append.mp h
    · exact .inl h
    · rw [List.mem_singleton.mp h]
      exact .inr rfl
  | kill => exact .inl (List.mem_filter.mp h).1
  | op op => cases op <;> exact .inl h
  | none | grant | release | pruneClaims | retainClaims | retainProvenance | insertProvenance
    | insertReplacement | removeReplacement => exact .inl h

theorem activity_perform (h : id ∈ (d.perform e).state.lastActivity.keys) :
    id ∈ d.state.lastActivity.keys ∨ e = .op (.touch id) := by
  cases e with
  | op op =>
    cases op with
    | touch id' =>
      have h' : id ∈ d.state.lastActivity.insert id' d.now := h
      obtain rfl | h' := (AList.mem_insert _).mp h'
      · exact .inr rfl
      · exact .inl h'
    | removeActivity id' =>
      have h' : id ∈ d.state.lastActivity.erase id' := h
      exact .inl (AList.mem_erase.mp h').2
    | forgetClaim | removeProvenance | removeReplacements => exact .inl h
  | none | grant | release | pruneClaims | retainClaims | retainProvenance | insertProvenance
    | insertReplacement | removeReplacement | register | kill => exact .inl h

theorem claims_perform {claim : SessionClaim}
    (h : (d.perform e).state.sessionClaims.lookup id = some claim) :
    e = .grant id claim ∨ d.state.sessionClaims.lookup id = some claim := by
  cases e with
  | op op =>
    cases op with
    | forgetClaim => exact .inr (FiniteMap.lookup_erase_eq_some_iff.mp h).2
    | touch | removeProvenance | removeReplacements | removeActivity => exact .inr h
  | grant =>
    obtain ⟨rfl, rfl⟩ | ⟨-, h⟩ := FiniteMap.lookup_insert_eq_some_iff.mp h
    · exact .inl rfl
    · exact .inr h
  | release => exact .inr (FiniteMap.lookup_erase_eq_some_iff.mp h).2
  | pruneClaims => exact .inr (FiniteMap.lookup_retain_eq_some_iff.mp h).1
  | retainClaims => exact .inr (FiniteMap.lookup_retain_eq_some_iff.mp h).1
  | none | retainProvenance | insertProvenance | insertReplacement | removeReplacement | register
    | kill => exact .inr h

theorem provenance_perform {p : TerminalSessionProvenance}
    (h : (d.perform e).state.sessionProvenance.lookup id = some p) :
    e = .insertProvenance p ∧ p.sessionId = id ∨
      d.state.sessionProvenance.lookup id = some p := by
  cases e with
  | op op =>
    cases op with
    | removeProvenance => exact .inr (FiniteMap.lookup_erase_eq_some_iff.mp h).2
    | touch | forgetClaim | removeReplacements | removeActivity => exact .inr h
  | insertProvenance =>
    obtain ⟨hid, rfl⟩ | ⟨-, h⟩ := FiniteMap.lookup_insert_eq_some_iff.mp h
    · exact .inl ⟨rfl, hid.symm⟩
    · exact .inr h
  | retainProvenance => exact .inr (FiniteMap.lookup_retain_eq_some_iff.mp h).1
  | none | grant | release | pruneClaims | retainClaims | insertReplacement | removeReplacement
    | register | kill => exact .inr h

theorem replacements_perform {expected replacement : String}
    (h : (d.perform e).state.restoreReplacements.lookup expected = some replacement) :
    e = .insertReplacement expected replacement ∨
      d.state.restoreReplacements.lookup expected = some replacement := by
  cases e with
  | op op =>
    cases op with
    | removeReplacements => exact .inr (FiniteMap.lookup_retain_eq_some_iff.mp h).1
    | touch | forgetClaim | removeProvenance | removeActivity => exact .inr h
  | insertReplacement =>
    obtain ⟨rfl, rfl⟩ | ⟨-, h⟩ := FiniteMap.lookup_insert_eq_some_iff.mp h
    · exact .inl rfl
    · exact .inr h
  | removeReplacement => exact .inr (FiniteMap.lookup_erase_eq_some_iff.mp h).2
  | none | grant | release | pruneClaims | retainClaims | retainProvenance | insertProvenance
    | register | kill => exact .inr h

theorem alive_perform (h : (d.perform e).state.alive id = true) :
    d.state.alive id = true ∨ ∃ status, e = .register id status ∧ status ≠ .exited := by
  obtain ⟨b, hb, rfl, hstatus⟩ := alive_iff.mp h
  obtain hb | rfl := sessions_perform hb
  · exact .inl (alive_iff.mpr ⟨b, hb, rfl, hstatus⟩)
  · exact .inr ⟨b.status, rfl, hstatus⟩

theorem claim_kept {claim : SessionClaim} (h : d.state.sessionClaims.lookup id = some claim) :
    (d.perform e).state.sessionClaims.lookup id = some claim ∨ e = .op (.forgetClaim id) ∨
      (∃ claim', e = .grant id claim') ∨ e = .release id ∨
      (∃ now, e = .pruneClaims now ∧ claim.isLive now = false) ∨
      ∃ liveIds, e = .retainClaims liveIds ∧ id ∉ liveIds := by
  cases e with
  | op op =>
    cases op with
    | forgetClaim id' =>
      by_cases hid : id = id'
      · rw [hid]
        exact .inr (.inl rfl)
      · exact .inl (FiniteMap.lookup_erase_eq_some_iff.mpr ⟨hid, h⟩)
    | touch | removeProvenance | removeReplacements | removeActivity => exact .inl h
  | grant id' claim' =>
    by_cases hid : id = id'
    · rw [hid]
      exact .inr (.inr (.inl ⟨claim', rfl⟩))
    · exact .inl (FiniteMap.lookup_insert_eq_some_iff.mpr (.inr ⟨hid, h⟩))
  | release id' =>
    by_cases hid : id = id'
    · rw [hid]
      exact .inr (.inr (.inr (.inl rfl)))
    · exact .inl (FiniteMap.lookup_erase_eq_some_iff.mpr ⟨hid, h⟩)
  | pruneClaims now =>
    cases hlive : claim.isLive now with
    | true => exact .inl (FiniteMap.lookup_retain_eq_some_iff.mpr ⟨h, hlive⟩)
    | false => exact .inr (.inr (.inr (.inr (.inl ⟨now, rfl, hlive⟩))))
  | retainClaims liveIds =>
    by_cases hid : id ∈ liveIds
    · exact .inl (FiniteMap.lookup_retain_eq_some_iff.mpr ⟨h, List.contains_iff_mem.mpr hid⟩)
    · exact .inr (.inr (.inr (.inr (.inr ⟨liveIds, rfl, hid⟩))))
  | none | retainProvenance | insertProvenance | insertReplacement | removeReplacement | register
    | kill => exact .inl h

theorem provenance_kept {p : TerminalSessionProvenance}
    (h : d.state.sessionProvenance.lookup id = some p) :
    (d.perform e).state.sessionProvenance.lookup id = some p ∨ e = .op (.removeProvenance id) ∨
      (∃ liveIds, e = .retainProvenance liveIds ∧ id ∉ liveIds) ∨
      ∃ p', e = .insertProvenance p' ∧ p'.sessionId = id := by
  cases e with
  | op op =>
    cases op with
    | removeProvenance id' =>
      by_cases hid : id = id'
      · rw [hid]
        exact .inr (.inl rfl)
      · exact .inl (FiniteMap.lookup_erase_eq_some_iff.mpr ⟨hid, h⟩)
    | touch | forgetClaim | removeReplacements | removeActivity => exact .inl h
  | retainProvenance liveIds =>
    by_cases hid : id ∈ liveIds
    · exact .inl (FiniteMap.lookup_retain_eq_some_iff.mpr ⟨h, List.contains_iff_mem.mpr hid⟩)
    · exact .inr (.inr (.inl ⟨liveIds, rfl, hid⟩))
  | insertProvenance p' =>
    by_cases hid : id = p'.sessionId
    · exact .inr (.inr (.inr ⟨p', rfl, hid.symm⟩))
    · exact .inl (FiniteMap.lookup_insert_eq_some_iff.mpr (.inr ⟨hid, h⟩))
  | none | grant | release | pruneClaims | retainClaims | insertReplacement | removeReplacement
    | register | kill => exact .inl h

theorem replacement_kept {expected replacement : String}
    (h : d.state.restoreReplacements.lookup expected = some replacement) :
    (d.perform e).state.restoreReplacements.lookup expected = some replacement ∨
      (∃ id, e = .op (.removeReplacements id) ∧ (expected = id ∨ replacement = id)) ∨
      e = .removeReplacement expected ∨
      ∃ replacement', e = .insertReplacement expected replacement' := by
  cases e with
  | op op =>
    cases op with
    | removeReplacements id =>
      by_cases hid : expected = id ∨ replacement = id
      · exact .inr (.inl ⟨id, rfl, hid⟩)
      · refine .inl (FiniteMap.lookup_retain_eq_some_iff.mpr ⟨h, ?_⟩)
        obtain ⟨h₁, h₂⟩ := not_or.mp hid
        exact Bool.and_eq_true_iff.mpr ⟨decide_eq_true h₁, decide_eq_true h₂⟩
    | touch | forgetClaim | removeProvenance | removeActivity => exact .inl h
  | insertReplacement expected' replacement' =>
    by_cases hexp : expected = expected'
    · rw [hexp]
      exact .inr (.inr (.inr ⟨replacement', rfl⟩))
    · exact .inl (FiniteMap.lookup_insert_eq_some_iff.mpr (.inr ⟨hexp, h⟩))
  | removeReplacement expected' =>
    by_cases hexp : expected = expected'
    · rw [hexp]
      exact .inr (.inr (.inl rfl))
    · exact .inl (FiniteMap.lookup_erase_eq_some_iff.mpr ⟨hexp, h⟩)
  | none | grant | release | pruneClaims | retainClaims | retainProvenance | insertProvenance
    | register | kill => exact .inl h

end Daemon

/-! ## the steps of the world -/

theorem update_ids {s : DaemonState} {id : String} {f : BackendSession → BackendSession}
    (hf : ∀ b, (f b).sessionId = b.sessionId) {b : BackendSession}
    (hb : b ∈ (ReaperWorld.updateSessions s id f).sessions) :
    ∃ b' ∈ s.sessions, b'.sessionId = b.sessionId := by
  obtain ⟨b', hb', rfl⟩ := ReaperWorld.mem_updateSessions.mp hb
  refine ⟨b', hb', ?_⟩
  split
  · exact (hf b').symm
  · rfl

namespace DaemonWorld

variable {host : Host}

open Daemon

theorem alive_update {s : DaemonState} {id id' : String} {f : BackendSession → BackendSession}
    (hf : ∀ b, (f b).sessionId = b.sessionId)
    (h : (ReaperWorld.updateSessions s id f).alive id' = true) :
    s.alive id' = true ∨ id' = id ∧ ∃ b ∈ s.sessions, b.sessionId = id ∧ b.status = .exited ∧
      (f b).status ≠ .exited := by
  obtain ⟨b', hb', rfl, hstatus⟩ := alive_iff.mp h
  obtain ⟨b, hb, rfl⟩ := ReaperWorld.mem_updateSessions.mp hb'
  split at hstatus
  next hid =>
    rw [if_pos hid, hf]
    by_cases hexited : b.status = .exited
    · exact .inr ⟨hid, b, hb, hid, hexited, hstatus⟩
    · exact .inl (alive_iff.mpr ⟨b, hb, rfl, hexited⟩)
  next hid =>
    rw [if_neg hid]
    exact .inl (alive_iff.mpr ⟨b, hb, rfl, hstatus⟩)

theorem sweep_effect {d : Daemon} {a : SweepAction} {sw sw' : Sweep} {s : DaemonState}
    (h : Sweep.Step d.state d.now d.epochMillis a sw s sw') :
    ∃ e, { d with state := s } = d.perform e ∧
      (e = .none ∨ (∃ o, a = .op ∧ o ∈ sw.pending ∧ e = .op o) ∨
        (∃ ttl sample b todo entries, sw.pc = .building ttl sample (b :: todo) entries ∧
          e = .op (.touch b.sessionId)) ∨
        ∃ id ttl todo, a = .kill true ∧ sw = ⟨[], .checking ttl id .unvisited todo⟩ ∧
          e = .kill id) := by
  cases h with
  | @op o => exact ⟨.op o, rfl, .inr (.inl ⟨o, rfl, .head _, rfl⟩)⟩
  | @build ttl sample session todo entries s' entry hbuild =>
    cases hbuild
    split
    · exact ⟨.none, rfl, .inl rfl⟩
    · exact ⟨.op (.touch session.sessionId), rfl,
        .inr (.inr (.inl ⟨ttl, sample, session, todo, entries, rfl, rfl⟩))⟩
  | @kill ttl id todo ok =>
    cases ok with
    | true => exact ⟨.kill id, rfl, .inr (.inr (.inr ⟨id, ttl, todo, rfl, rfl, rfl⟩))⟩
    | false => exact ⟨.none, rfl, .inl rfl⟩
  | wake | listFailed | list | readNow | readEpoch | sample | cleanEnd | cleanListed | cleanGone
    | select | rest | subscribed | unsubscribed | readRecheckNow | visited | unvisited =>
    exact ⟨.none, rfl, .inl rfl⟩

inductive Cause (host : Host) (w : DaemonWorld) : DaemonAction → Effect → Prop where
  | idle {a : DaemonAction} : Cause host w a .none
  | handler {k : Nat} {a : HandlerAction} {e : Effect} {h h' : Handler}
      (before : w.handlers.lookup k = some (.running h))
      (hstep : Handler.Step host w.daemon h a e h')
      (after : (w.step host (.handler k a)).handlers.lookup k = some (.running h')) :
    Cause host w (.handler k a) e
  | removal {o : MapOp} (h : o ∈ w.sweep.pending) : Cause host w (.sweep .op) (.op o)
  | touch {a : DaemonAction} (id : String) : Cause host w a (.op (.touch id))
  | kill {a : DaemonAction} (id : String) : Cause host w a (.kill id)

structure SameMaps (s s' : DaemonState) : Prop where
  claims : s.sessionClaims = s'.sessionClaims
  provenance : s.sessionProvenance = s'.sessionProvenance
  replacements : s.restoreReplacements = s'.restoreReplacements

theorem SameMaps.refl (s : DaemonState) : SameMaps s s := ⟨rfl, rfl, rfl⟩

theorem step_cause (host : Host) (w : DaemonWorld) (a : DaemonAction) :
    ∃ e, Cause host w a e ∧
      SameMaps (w.step host a).daemon.state (w.daemon.perform e).state := by
  cases a with
  | arrive k request =>
    obtain heq | ⟨-, heq⟩ := step_arrive w k request
    all_goals
      rw [heq]
      exact ⟨.none, .idle, .refl _⟩
  | acquire k =>
    obtain heq | ⟨_, _, _, heq⟩ := step_acquire w k
    all_goals
      rw [heq]
      exact ⟨.none, .idle, .refl _⟩
  | handler k a =>
    obtain heq | ⟨h, e, h', hlookup, hstep, heq⟩ := step_handler w k a
    · rw [heq]
      exact ⟨.none, .idle, .refl _⟩
    refine ⟨e, .handler hlookup hstep ?_, ?_⟩
    · rw [heq]
      exact AList.lookup_insert _
    · rw [heq]
      exact .refl _
  | sweep a =>
    obtain heq | ⟨s, sw, -, hstep, heq⟩ := step_sweep w a
    · rw [heq]
      exact ⟨.none, .idle, .refl _⟩
    rw [heq]
    obtain ⟨e, hperform, he⟩ := sweep_effect hstep
    refine ⟨e, ?_, ?_⟩
    · obtain rfl | ⟨o, rfl, ho, rfl⟩ | ⟨_, _, b, _, _, -, rfl⟩ | ⟨id, _, _, -, -, rfl⟩ := he
      · exact .idle
      · exact .removal ho
      · exact .touch b.sessionId
      · exact .kill id
    · rw [← hperform]
      exact .refl _
  | touch id => exact ⟨.op (.touch id), .touch id, .refl _⟩
  | leave id => exact ⟨.kill id, .kill id, .refl _⟩
  | tick | setWallClock | setStatus | output | setSubscribed =>
    exact ⟨.none, .idle, ⟨rfl, rfl, rfl⟩⟩

end DaemonWorld
end CcPanes

import CcPanes.Daemon.Writes

/-!
# Ids of sessions

A new session gets an id that nobody has used.  Here: every id in the maps, in the hands of a
handler or of the reaper is known, so what a handler or the reaper is about to do to a session it
never does to one that is born later.
-/

namespace CcPanes
open List

variable {d : Daemon}

def MapOp.sessionId : MapOp → String
  | touch id | forgetClaim id | removeProvenance id | removeReplacements id
  | removeActivity id => id

def Effect.ids : Effect → List String
  | op o => [o.sessionId]
  | grant id _ => [id]
  | insertProvenance p => [p.sessionId]
  | insertReplacement expected replacement => [expected, replacement]
  | _ => []

def CreatePc.ids : CreatePc → List String
  | lookingUp expected | forgetting expected => [expected]
  | checking expected replacement => [expected, replacement]
  | reusing id | claiming id | claimTimed id _ | reused id | lateReturned id | created id
  | touched id | ownTimed id _ | rejected id _ | owned id | recorded id => [id]
  | launching registered | late registered => registered.toList
  | cleaning ops _ => ops.map MapOp.sessionId
  | entered => []

def Handler.ids : Handler → List String
  | guarded g (.cleaning ops) => g.sessionId :: ops.map MapOp.sessionId
  | guarded g _ => [g.sessionId]
  | claim id _ _ _ | release id _ _ | status id _ => [id]
  | create c pc => c.request.expectedSavedSessionId.toList ++ pc.ids
  | claims _ | adoption _ | done _ => []

def InFlight.ids : InFlight → List String
  | waiting request => request.ids
  | running h => h.ids

def SweepPc.ids : SweepPc → List String
  | .sleeping | .started _ => []
  | .listed _ sessions | .timed _ sessions _ | .dated _ sessions _ _ => sessions.map (·.sessionId)
  | .cleaning _ sample todo => sample.sessions.map (·.sessionId) ++ todo
  | .building _ _ todo entries => todo.map (·.sessionId) ++ entries.map (·.sessionId)
  | .reaping _ todo => todo
  | .checking _ id _ todo => id :: todo

def Sweep.ids (sw : Sweep) : List String := sw.pending.map MapOp.sessionId ++ sw.pc.ids

theorem removeSessionActivity_ids (id : String) :
    (DaemonState.removeSessionActivity id).map MapOp.sessionId = [id, id, id, id] := rfl

structure Known (d : Daemon) : Prop where
  sessions : ∀ s ∈ d.state.sessions, s.sessionId ∈ d.known
  activity : ∀ id ∈ d.state.lastActivity.keys, id ∈ d.known
  claims : ∀ id claim, d.state.sessionClaims.lookup id = some claim → id ∈ d.known
  provenance : ∀ id p, d.state.sessionProvenance.lookup id = some p → id ∈ d.known
  replacements : ∀ expected replacement,
    d.state.restoreReplacements.lookup expected = some replacement →
      expected ∈ d.known ∧ replacement ∈ d.known

namespace Daemon

theorem known_perform (d : Daemon) (e : Effect) {id : String} (h : id ∈ d.known) :
    id ∈ (d.perform e).known := by
  cases e with
  | register => exact .tail _ h
  | none | op | grant | release | pruneClaims | retainClaims | retainProvenance | insertProvenance
    | insertReplacement | removeReplacement | kill => exact h

end Daemon

open Daemon

theorem Known.perform (hd : Known d) {e : Effect} (he : ∀ id ∈ e.ids, id ∈ d.known) :
    Known (d.perform e) where
  sessions b hb := by
    obtain hb | rfl := sessions_perform hb
    · exact known_perform d e (hd.sessions b hb)
    · exact .head _
  activity id hid := by
    obtain hid | rfl := activity_perform hid
    · exact known_perform d e (hd.activity id hid)
    · exact known_perform d _ (he id (.head _))
  claims id claim h := by
    obtain rfl | h := claims_perform h
    · exact known_perform d _ (he id (.head _))
    · exact known_perform d e (hd.claims id claim h)
  provenance id p h := by
    obtain ⟨rfl, rfl⟩ | h := provenance_perform h
    · exact known_perform d _ (he _ (.head _))
    · exact known_perform d e (hd.provenance id p h)
  replacements expected replacement h := by
    obtain rfl | h := replacements_perform h
    · exact ⟨known_perform d _ (he _ (.head _)), known_perform d _ (he _ (.tail _ (.head _)))⟩
    · obtain ⟨h₁, h₂⟩ := hd.replacements expected replacement h
      exact ⟨known_perform d e h₁, known_perform d e h₂⟩

theorem start_ids (request : Request) {id : String} (h : id ∈ request.start.ids) :
    id ∈ request.ids := by
  cases request with
  | guarded =>
    rw [Request.start] at h
    split at h <;> exact h
  | claim =>
    rw [Request.start] at h
    split at h
    · exact h
    · cases h
  | create =>
    rw [Request.start] at h
    split at h
    · cases h
    · exact (mem_append.mp h).elim (fun h => h) (fun h => absurd h not_mem_nil)
  | release | status | claims | adoption => exact h

theorem ids_step {host : Host} {h h' : Handler} {a : HandlerAction} {e : Effect}
    (hstep : Handler.Step host d h a e h') (hd : Known d) (hids : ∀ id ∈ h.ids, id ∈ d.known) :
    (∀ id ∈ e.ids, id ∈ d.known) ∧ ∀ id ∈ h'.ids, id ∈ (d.perform e).known := by
  have hreplacements := hd.replacements
  cases hstep
  all_goals
    simp only [Handler.ids, CreatePc.ids, Effect.ids, MapOp.sessionId, Daemon.perform,
      removeSessionActivity_ids, Creation.provenance, Option.toList, map_cons, mem_append,
      mem_cons, not_mem_nil, or_false] at hids ⊢
    grind

theorem selectExpired_ids {entries : List ReaperEntry} {ttl now nowEpochMillis : Nat} {id : String}
    (h : id ∈ selectExpired entries ttl now nowEpochMillis) :
    id ∈ entries.map (·.sessionId) := by
  obtain ⟨entry, hentry, rfl⟩ := mem_map.mp h
  rw [mem_insertionSort] at hentry
  exact mem_map_of_mem (mem_filter.mp hentry).1

theorem sweep_ids {a : SweepAction} {sw sw' : Sweep} {s : DaemonState}
    (h : Sweep.Step d.state d.now d.epochMillis a sw s sw') (hd : Known d)
    (hids : ∀ id ∈ sw.ids, id ∈ d.known) : ∀ id ∈ sw'.ids, id ∈ d.known := by
  cases h with
  | wake | listFailed | rest => nofun
  | @list ttl order hperm =>
    intro id hid
    obtain ⟨b, hb, rfl⟩ := mem_map.mp hid
    exact hd.sessions b (hperm.mem_iff.mp hb)
  | @sample ttl sessions now nowEpochMillis order hperm =>
    intro id hid
    have hid' : id ∈ sessions.map (·.sessionId) ++ order := hid
    obtain hlisted | hactive := mem_append.mp hid'
    · exact hids id hlisted
    · exact hd.activity id (hperm.mem_iff.mp hactive)
  | select =>
    intro id hid
    exact hids id (mem_append.mpr (.inr (selectExpired_ids hid)))
  | build hbuild =>
    cases hbuild
    simp only [Sweep.ids, SweepPc.ids, map_nil, map_cons, map_append, nil_append,
      mem_append, mem_cons] at hids ⊢
    grind
  | op | readNow | readEpoch | cleanEnd | cleanListed | cleanGone | subscribed | unsubscribed
    | readRecheckNow | visited | unvisited | kill =>
    simp only [Sweep.ids, SweepPc.ids, removeSessionActivity_ids, map_nil, map_cons,
      mem_append, mem_cons] at hids ⊢
    grind

/-! ## all ids -/

structure AllKnown (w : DaemonWorld) : Prop where
  daemon : Known w.daemon
  handlers : ∀ k f, w.handlers.lookup k = some f → ∀ id ∈ f.ids, id ∈ w.daemon.known
  sweep : ∀ id ∈ w.sweep.ids, id ∈ w.daemon.known

theorem Known.more (hd : Known d) {known : List String} (h : ∀ id ∈ d.known, id ∈ known) :
    Known { d with known := known } where
  sessions b hb := h _ (hd.sessions b hb)
  activity id hid := h id (hd.activity id hid)
  claims id claim hl := h id (hd.claims id claim hl)
  provenance id p hl := h id (hd.provenance id p hl)
  replacements expected replacement hl :=
    (hd.replacements expected replacement hl).imp (h _) (h _)

theorem Known.updated (hd : Known d) {id : String} {f : BackendSession → BackendSession}
    (hf : ∀ b, (f b).sessionId = b.sessionId) :
    Known { d with state := ReaperWorld.updateSessions d.state id f } := { hd with
  sessions b hb := by
    obtain ⟨b', hb', hid⟩ := update_ids hf hb
    have hknown := hd.sessions b' hb'
    rwa [hid] at hknown }

namespace DaemonWorld

variable {host : Host} {w : DaemonWorld} {id : String} {a : DaemonAction}

theorem allKnown_step (hw : AllKnown w) (a : DaemonAction) : AllKnown (w.step host a) := by
  cases a with
  | arrive k request =>
    obtain heq | ⟨-, heq⟩ := step_arrive w k request
    · rw [heq]
      exact hw
    rw [heq]
    have hmore : ∀ id ∈ w.daemon.known, id ∈ request.ids ++ w.daemon.known := fun id hid =>
      mem_append.mpr (.inr hid)
    refine ⟨hw.daemon.more hmore, ?_, fun id hid => hmore id (hw.sweep id hid)⟩
    intro k' f hf id hid
    obtain ⟨-, rfl⟩ | ⟨-, hf⟩ := lookup_insert hf
    · exact mem_append.mpr (.inl hid)
    · exact hmore id (hw.handlers k' f hf id hid)
  | acquire k =>
    obtain heq | ⟨request, hlookup, -, heq⟩ := step_acquire w k
    · rw [heq]
      exact hw
    rw [heq]
    refine ⟨hw.daemon, ?_, hw.sweep⟩
    intro k' f hf id hid
    obtain ⟨-, rfl⟩ | ⟨-, hf⟩ := lookup_insert hf
    · exact hw.handlers k _ hlookup id (start_ids request hid)
    · exact hw.handlers k' f hf id hid
  | handler k a =>
    obtain heq | ⟨h, e, h', hlookup, hstep, heq⟩ := step_handler w k a
    · rw [heq]
      exact hw
    rw [heq]
    obtain ⟨he, hh'⟩ := ids_step hstep hw.daemon (hw.handlers k _ hlookup)
    refine ⟨hw.daemon.perform he, ?_, fun id hid => known_perform _ e (hw.sweep id hid)⟩
    intro k' f hf id hid
    obtain ⟨-, rfl⟩ | ⟨-, hf⟩ := lookup_insert hf
    · exact hh' id hid
    · exact known_perform _ e (hw.handlers k' f hf id hid)
  | sweep a =>
    obtain heq | ⟨s, sw, -, hstep, heq⟩ := step_sweep w a
    · rw [heq]
      exact hw
    rw [heq]
    have hsweep := sweep_ids hstep hw.daemon hw.sweep
    obtain ⟨e, hperform, he⟩ := sweep_effect hstep
    have hknown : ∀ id ∈ e.ids, id ∈ w.daemon.known := by
      obtain rfl | ⟨o, -, ho, rfl⟩ | ⟨ttl, sample, b, todo, entries, hpc, rfl⟩ |
        ⟨_, _, _, -, -, rfl⟩ := he
      · nofun
      · intro id hid
        rw [mem_singleton.mp hid]
        exact hw.sweep _ (mem_append.mpr (.inl (mem_map_of_mem ho)))
      · intro id hid
        rw [mem_singleton.mp hid]
        refine hw.sweep _ (mem_append.mpr (.inr ?_))
        rw [hpc]
        exact .head _
      · nofun
    refine ⟨?_, ?_, hsweep⟩
    · show Known { w.daemon with state := s }
      rw [hperform]
      exact hw.daemon.perform hknown
    · exact hw.handlers
  | touch id =>
    have hmore : ∀ id' ∈ w.daemon.known, id' ∈ id :: w.daemon.known := fun id' hid => .tail _ hid
    refine ⟨?_, fun k f hf id' hid => hmore id' (hw.handlers k f hf id' hid),
      fun id' hid => hmore id' (hw.sweep id' hid)⟩
    refine (hw.daemon.more hmore).perform (e := .op (.touch id)) ?_
    intro id' hid
    rw [mem_singleton.mp hid]
    exact .head _
  | setStatus id status =>
    exact ⟨hw.daemon.updated (f := fun s => { s with status := status }) fun _ => rfl,
      hw.handlers, hw.sweep⟩
  | output =>
    exact ⟨hw.daemon.updated (f := fun s => { s with lastOutputAt := w.daemon.epochMillis })
      fun _ => rfl, hw.handlers, hw.sweep⟩
  | tick | setWallClock | setSubscribed =>
    exact ⟨⟨hw.daemon.sessions, hw.daemon.activity, hw.daemon.claims, hw.daemon.provenance,
      hw.daemon.replacements⟩, hw.handlers, hw.sweep⟩
  | leave => exact ⟨hw.daemon.perform nofun, hw.handlers, hw.sweep⟩

theorem known_step (host : Host) (a : DaemonAction) (h : id ∈ w.daemon.known) :
    id ∈ (w.step host a).daemon.known := by
  cases a with
  | arrive k request =>
    obtain heq | ⟨-, heq⟩ := step_arrive w k request
    all_goals rw [heq]
    · exact h
    · exact mem_append.mpr (.inr h)
  | acquire k =>
    obtain heq | ⟨_, _, _, heq⟩ := step_acquire w k
    all_goals
      rw [heq]
      exact h
  | handler k a =>
    obtain heq | ⟨_, e, _, _, _, heq⟩ := step_handler w k a
    all_goals rw [heq]
    · exact h
    · exact known_perform w.daemon e h
  | sweep a =>
    obtain heq | ⟨_, _, _, _, heq⟩ := step_sweep w a
    all_goals
      rw [heq]
      exact h
  | touch => exact .tail _ h
  | tick | setWallClock | setStatus | output | setSubscribed | leave => exact h

def fresh (startedAt now epochMillis : Nat) : DaemonWorld :=
  ⟨⟨DaemonState.empty startedAt, [], now, epochMillis⟩, Sweep.asleep, ∅⟩

theorem fresh_known (startedAt now epochMillis : Nat) :
    AllKnown (fresh startedAt now epochMillis) where
  daemon :=
    { sessions := fun _ h => (nomatch h)
      activity _ h := (nomatch h)
      claims _ _ h := by cases h
      provenance _ _ h := by cases h
      replacements _ _ h := by cases h }
  handlers _ _ h := by cases h
  sweep _ h := (nomatch h)

/-! ## sessions that come to life -/

/-- a hook reports on a session that has exited and is still in the table of the backend -/
def Revives (w : DaemonWorld) : DaemonAction → Prop
  | .setStatus id status =>
    status ≠ .exited ∧ ∃ b ∈ w.daemon.state.sessions, b.sessionId = id ∧ b.status = .exited
  | _ => False

/-- the backend registers the session of a creation -/
def Registers (w : DaemonWorld) (a : DaemonAction) (k : Nat) (c : Creation) (id : String) : Prop :=
  ∃ status, a = .handler k (.register id status) ∧ id ∉ w.daemon.known ∧
    (w.handlers.lookup k = some (.running (.create c (.launching none))) ∨
      w.handlers.lookup k = some (.running (.create c (.late none))))

theorem registers_of_effect {k : Nat} {h h' : Handler} {a : HandlerAction}
    {status : SessionStatus} (hlookup : w.handlers.lookup k = some (.running h))
    (hstep : Handler.Step host w.daemon h a (.register id status) h') :
    ∃ c, Registers w (.handler k a) k c id := by
  cases hstep with
  | registered hfresh => exact ⟨_, status, rfl, hfresh, .inl hlookup⟩
  | lateRegistered hfresh => exact ⟨_, status, rfl, hfresh, .inr hlookup⟩

theorem Registers.after {k : Nat} {c : Creation} (h : Registers w a k c id) :
    id ∈ (w.step host a).daemon.known ∧
      (w.handlers.lookup k = some (.running (.create c (.launching none))) →
        (w.step host a).handlers.lookup k =
          some (.running (.create c (.launching (some id))))) := by
  obtain ⟨status, rfl, hfresh, hk⟩ := h
  obtain hk | hk := hk
  all_goals
    rw [step]
    simp only [hk, Handler.step, stepCreate, if_neg hfresh]
  · exact ⟨.head _, fun _ => AList.lookup_insert _⟩
  · refine ⟨.head _, fun h => ?_⟩
    cases h

theorem alive_step (hrev : ¬ Revives w a) (h : (w.step host a).daemon.state.alive id = true) :
    w.daemon.state.alive id = true ∨ ∃ k c, Registers w a k c id := by
  cases a with
  | arrive k request =>
    obtain heq | ⟨-, heq⟩ := step_arrive w k request
    all_goals
      rw [heq] at h
      exact .inl h
  | acquire k =>
    obtain heq | ⟨_, _, _, heq⟩ := step_acquire w k
    all_goals
      rw [heq] at h
      exact .inl h
  | handler k a =>
    obtain heq | ⟨hd, e, hd', hlookup, hstep, heq⟩ := step_handler w k a
    · rw [heq] at h
      exact .inl h
    rw [heq] at h
    obtain halive | ⟨status, rfl, -⟩ := alive_perform h
    · exact .inl halive
    · exact .inr ⟨k, registers_of_effect hlookup hstep⟩
  | sweep a =>
    obtain heq | ⟨s, sw, -, hstep, heq⟩ := step_sweep w a
    · rw [heq] at h
      exact .inl h
    rw [heq] at h
    obtain ⟨e, hperform, he⟩ := sweep_effect hstep
    have h' : (w.daemon.perform e).state.alive id = true := by
      rw [← hperform]
      exact h
    obtain halive | ⟨status, rfl, -⟩ := alive_perform h'
    · exact .inl halive
    · obtain he | ⟨_, _, _, he⟩ | ⟨_, _, _, _, _, _, he⟩ | ⟨_, _, _, _, _, he⟩ := he <;> cases he
  | setStatus id' status =>
    obtain halive | ⟨rfl, b, hb, hid, hexited, hstatus⟩ :=
      alive_update (f := fun s => { s with status := status }) (fun _ => rfl) h
    · exact .inl halive
    · exact absurd ⟨hstatus, b, hb, hid, hexited⟩ hrev
  | output =>
    obtain halive | ⟨-, b, -, -, hexited, hstatus⟩ :=
      alive_update (f := fun s => { s with lastOutputAt := w.daemon.epochMillis }) (fun _ => rfl) h
    · exact .inl halive
    · exact absurd hexited hstatus
  | leave id' =>
    obtain halive | ⟨_, he, -⟩ := alive_perform (e := .kill id') h
    · exact .inl halive
    · cases he
  | touch | tick | setWallClock | setSubscribed => exact .inl h

theorem alive_of_known (hrev : ¬ Revives w a) (hknown : id ∈ w.daemon.known)
    (h : (w.step host a).daemon.state.alive id = true) : w.daemon.state.alive id = true := by
  obtain halive | ⟨k, c, status, -, hfresh, -⟩ := alive_step hrev h
  · exact halive
  · exact absurd hknown hfresh

end DaemonWorld
end CcPanes

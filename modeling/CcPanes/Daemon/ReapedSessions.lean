import CcPanes.Daemon.SessionReaper
import Mathlib.Logic.Function.Basic

/-!
# The sessions a sweep kills

The sweep of the reaper among the steps of the sessions and their viewers.  Before a kill the sweep
looks again at the subscribers and at the viewers' activity, not at the status and the output.
-/

namespace CcPanes
open List Function

/-! ## the sweep among sessions and viewers -/

structure ReaperWorld where
  d : DaemonState
  now : Nat
  epochMillis : Nat
  sweep : Sweep

inductive ReaperAction where
  | sweep (a : SweepAction)
  | tick (nanos : Nat)
  | setWallClock (millis : Nat)
  | setStatus (id : String) (status : SessionStatus)
  | output (id : String)
  | subscribe (id : String)
  | unsubscribe (id : String)
  /-- `touch` is a viewer's access, the others are the clean-up of other handlers -/
  | mapOp (op : MapOp)
  | create (id : String) (status : SessionStatus)
  | leave (id : String)

namespace ReaperWorld

def updateSessions (d : DaemonState) (id : String) (f : BackendSession → BackendSession) :
    DaemonState :=
  { d with sessions := d.sessions.map fun s => if s.sessionId = id then f s else s }

def step (w : ReaperWorld) : ReaperAction → ReaperWorld
  | .sweep a =>
    let r := w.sweep.step w.d w.now w.epochMillis a
    { w with d := r.1, sweep := r.2 }
  | .tick nanos => { w with now := w.now + nanos }
  | .setWallClock millis => { w with epochMillis := millis }
  | .setStatus id status =>
    { w with d := updateSessions w.d id fun s => { s with status := status } }
  | .output id =>
    { w with d := updateSessions w.d id fun s => { s with lastOutputAt := w.epochMillis } }
  | .subscribe id =>
    { w with d := { w.d with subscribed := Function.update w.d.subscribed id true } }
  | .unsubscribe id =>
    { w with d := { w.d with subscribed := Function.update w.d.subscribed id false } }
  | .mapOp op => { w with d := w.d.apply w.now op }
  | .create id status =>
    if w.d.sessions.any fun s => s.sessionId = id then w
    else { w with d := { w.d with sessions := w.d.sessions ++ [⟨id, status, w.epochMillis⟩] } }
  | .leave id => { w with d := Sweep.killSession w.d id }

structure Silent (epochMillis ttl : Nat) (s : BackendSession) : Prop where
  status : isReapProtectedStatus s.status = false
  output : ttlMillis ttl < epochMillis - s.lastOutputAt

def Unvisited (d : DaemonState) (now ttl : Nat) (id : String) : Prop :=
  ∀ last, d.lastActivity.lookup id = some last → ttl < now - last

/-- all conditions hold of the session `id` now, if the backend has it -/
def Justified (w : ReaperWorld) (ttl : Nat) (id : String) : Prop :=
  ∀ s ∈ w.d.sessions, s.sessionId = id →
    w.d.subscribed id = false ∧ Unvisited w.d w.now ttl id ∧ Silent w.epochMillis ttl s

end ReaperWorld

def SweepPc.candidates : SweepPc → List String
  | .reaping _ todo => todo
  | .checking _ id _ todo => id :: todo
  | _ => []

def SweepPc.reapTtl : SweepPc → Nat
  | .reaping ttl _ | .checking ttl _ _ _ => ttl
  | _ => 0

namespace ReaperWorld

variable {w : ReaperWorld} {f : BackendSession → BackendSession} {id : String} {d : DaemonState}

def HasSession (d : DaemonState) (id : String) : Prop := ∃ s ∈ d.sessions, s.sessionId = id

/-- No session that the sweep has selected, or is just selecting, becomes busy, prints or turns out
to have done so since it was listed; no viewer comes after the sweep has looked for viewers. -/
def Undisturbed (w : ReaperWorld) : ReaperAction → Prop
  | .sweep .select =>
    ∀ ttl sample entries, w.sweep = ⟨[], .building ttl sample [] entries⟩ →
      ∀ id ∈ selectExpired entries ttl sample.now sample.nowEpochMillis,
        ∀ s ∈ w.d.sessions, s.sessionId = id → Silent w.epochMillis ttl s
  | .setStatus id status =>
    id ∈ w.sweep.pc.candidates → HasSession w.d id → isReapProtectedStatus status = false
  | .output id => id ∈ w.sweep.pc.candidates → ¬ HasSession w.d id
  | .setWallClock millis =>
    ∀ id ∈ w.sweep.pc.candidates, ∀ s ∈ w.d.sessions, s.sessionId = id →
      ttlMillis w.sweep.pc.reapTtl < millis - s.lastOutputAt
  | .create id _ => id ∈ w.sweep.pc.candidates → HasSession w.d id
  | .subscribe id =>
    ∀ ttl stage todo, w.sweep.pc = .checking ttl id stage todo → ¬ HasSession w.d id
  | .mapOp (.touch id) =>
    ∀ ttl todo, w.sweep.pc = .checking ttl id .unvisited todo → ¬ HasSession w.d id
  | _ => True

structure Safe (w : ReaperWorld) : Prop where
  silent : ∀ id ∈ w.sweep.pc.candidates, ∀ s ∈ w.d.sessions, s.sessionId = id →
    Silent w.epochMillis w.sweep.pc.reapTtl s
  unsubscribed : ∀ ttl id stage todo, w.sweep.pc = .checking ttl id stage todo →
    HasSession w.d id → w.d.subscribed id = false
  unvisited : ∀ ttl id todo, w.sweep.pc = .checking ttl id .unvisited todo →
    HasSession w.d id → Unvisited w.d w.now ttl id

theorem Safe.justified (h : Safe w) {ttl : Nat} {todo : List String}
    (hpc : w.sweep.pc = .checking ttl id .unvisited todo) : Justified w ttl id := by
  intro s hs hid
  have hsilent := h.silent id (by rw [hpc]; exact .head _) s hs hid
  rw [hpc] at hsilent
  exact ⟨h.unsubscribed ttl id _ todo hpc ⟨s, hs, hid⟩,
    h.unvisited ttl id todo hpc ⟨s, hs, hid⟩, hsilent⟩

/-! ## steps that change nothing for the worse -/

theorem HasSession.mono {d d' : DaemonState} (h : ∀ s ∈ d'.sessions, s ∈ d.sessions)
    (hid : HasSession d' id) : HasSession d id := by
  obtain ⟨s, hs, hid⟩ := hid
  exact ⟨s, h s hs, hid⟩

theorem Safe.mono {w w' : ReaperWorld} (h : Safe w) (hpc : w'.sweep.pc = w.sweep.pc)
    (hs : ∀ s ∈ w'.d.sessions, s ∈ w.d.sessions)
    (hsub : ∀ id, w.d.subscribed id = false → w'.d.subscribed id = false)
    (hact : ∀ id last, w'.d.lastActivity.lookup id = some last →
      w.d.lastActivity.lookup id = some last)
    (hnow : w.now ≤ w'.now) (hepoch : w'.epochMillis = w.epochMillis) : Safe w' where
  silent id hid s hs' := by
    rw [hpc] at hid ⊢
    rw [hepoch]
    exact h.silent id hid s (hs s hs')
  unsubscribed ttl id stage todo hpc' hid := by
    rw [hpc] at hpc'
    exact hsub id (h.unsubscribed ttl id stage todo hpc' (hid.mono hs))
  unvisited ttl id todo hpc' hid last hlast := by
    rw [hpc] at hpc'
    have hlt := h.unvisited ttl id todo hpc' (hid.mono hs) last (hact id last hlast)
    omega

def IsRemoval (op : MapOp) : Prop := ∀ id, op ≠ .touch id

theorem lookup_apply_of_removal {now : Nat} {op : MapOp} (h : IsRemoval op) {last : Nat}
    (hl : (d.apply now op).lastActivity.lookup id = some last) :
    d.lastActivity.lookup id = some last := by
  cases op with
  | touch id' => exact absurd rfl (h id')
  | removeActivity => exact (FiniteMap.lookup_erase_eq_some_iff.mp hl).2
  | forgetClaim => exact hl
  | removeProvenance => exact hl
  | removeReplacements => exact hl

theorem apply_sessions (d : DaemonState) (now : Nat) (op : MapOp) :
    (d.apply now op).sessions = d.sessions := by
  cases op <;> rfl

theorem apply_subscribed (d : DaemonState) (now : Nat) (op : MapOp) :
    (d.apply now op).subscribed = d.subscribed := by
  cases op <;> rfl

theorem Safe.apply (h : Safe w) {op : MapOp} (hop : IsRemoval op) :
    Safe { w with d := w.d.apply w.now op } := by
  refine h.mono rfl ?_ ?_ (fun id last hl => lookup_apply_of_removal hop hl) (Nat.le_refl _) rfl
  · intro s hs
    have hs' : s ∈ (w.d.apply w.now op).sessions := hs
    rwa [apply_sessions] at hs'
  · intro id hid
    rwa [apply_subscribed]

/-- what is pending are removals, and the clock of the recheck was read before now -/
structure Sweeping (w : ReaperWorld) : Prop where
  pending : ∀ op ∈ w.sweep.pending, IsRemoval op
  recheckNow : ∀ ttl id recheckNow todo, w.sweep.pc = .checking ttl id (.timed recheckNow) todo →
    recheckNow ≤ w.now

theorem isRemoval_of_mem {op : MapOp} (h : op ∈ DaemonState.removeSessionActivity id) :
    IsRemoval op := by
  intro id'
  rintro rfl
  unfold DaemonState.removeSessionActivity at h
  simp only [mem_cons, not_mem_nil, or_false, reduceCtorEq] at h

def Idle (pc : SweepPc) : Prop :=
  pc.candidates = [] ∧ ∀ ttl id stage todo, pc ≠ .checking ttl id stage todo

theorem safe_of_idle (h : Idle w.sweep.pc) : Safe w where
  silent id hid := by
    rw [h.1] at hid
    cases hid
  unsubscribed ttl id stage todo hpc := absurd hpc (h.2 ttl id stage todo)
  unvisited ttl id todo hpc := absurd hpc (h.2 ttl id .unvisited todo)

theorem safe_of_reaping {w w' : ReaperWorld} (h : Safe w) {ttl : Nat} {todo : List String}
    (hpc : w'.sweep.pc = .reaping ttl todo) (httl : w.sweep.pc.reapTtl = ttl)
    (hc : ∀ id ∈ todo, id ∈ w.sweep.pc.candidates) (hs : ∀ s ∈ w'.d.sessions, s ∈ w.d.sessions)
    (hepoch : w'.epochMillis = w.epochMillis) : Safe w' where
  silent id hid s hs' hsid := by
    rw [hpc] at hid ⊢
    rw [hepoch]
    have hsilent := h.silent id (hc id hid) s (hs s hs') hsid
    rwa [httl] at hsilent
  unsubscribed ttl' id stage todo' hpc' := nomatch hpc.symm.trans hpc'
  unvisited ttl' id todo' hpc' := nomatch hpc.symm.trans hpc'

theorem safe_sweep (hr : Sweeping w) (hs : Safe w) (a : SweepAction)
    (hP : Undisturbed w (.sweep a)) : Safe (w.step (.sweep a)) := by
  obtain ⟨d, now, epochMillis, sw⟩ := w
  show Safe ⟨(sw.step d now epochMillis a).1, now, epochMillis, (sw.step d now epochMillis a).2⟩
  obtain heq | ⟨d', sw', heq, hstep⟩ := Sweep.step_spec d now epochMillis sw a
  · rw [heq]
    exact hs
  rw [heq]
  cases hstep with
  | op =>
    have h := hs.apply (hr.pending _ (.head _))
    exact ⟨h.silent, h.unsubscribed, h.unvisited⟩
  | wake | listFailed | list | readNow | readEpoch | sample | cleanEnd | cleanListed | cleanGone
    | build | rest => exact safe_of_idle ⟨rfl, nofun⟩
  | @select ttl sample entries =>
    refine ⟨?_, nofun, nofun⟩
    exact hP ttl sample entries rfl
  | subscribed | visited =>
    exact safe_of_reaping hs rfl rfl (fun id hid => .tail _ hid) (fun s hs => hs) rfl
  | unsubscribed h =>
    refine ⟨hs.silent, ?_, nofun⟩
    rintro _ _ _ _ ⟨⟩ _
    exact h
  | @readRecheckNow ttl id todo =>
    refine ⟨hs.silent, ?_, nofun⟩
    rintro _ _ _ _ ⟨⟩ hid
    exact hs.unsubscribed ttl id .unsubscribed todo rfl hid
  | @unvisited ttl id recheckNow todo h =>
    refine ⟨hs.silent, ?_, ?_⟩
    · rintro _ _ _ _ ⟨⟩ hid
      exact hs.unsubscribed ttl id (.timed recheckNow) todo rfl hid
    rintro _ _ _ ⟨⟩ hid last hlast
    have hlt := h last hlast
    have hle : recheckNow ≤ now := hr.recheckNow ttl id recheckNow todo rfl
    show ttl < now - last
    omega
  | kill ok =>
    refine safe_of_reaping hs rfl rfl (fun id hid => .tail _ hid) ?_ rfl
    intro s hs'
    cases ok with
    | true => exact (mem_filter.mp hs').1
    | false => exact hs'

theorem sweeping_step (h : Sweeping w) (a : ReaperAction) : Sweeping (w.step a) := by
  cases a with
  | sweep a =>
    obtain ⟨d, now, epochMillis, sw⟩ := w
    show Sweeping ⟨(sw.step d now epochMillis a).1, now, epochMillis,
      (sw.step d now epochMillis a).2⟩
    obtain heq | ⟨d', sw', heq, hstep⟩ := Sweep.step_spec d now epochMillis sw a
    · rw [heq]
      exact h
    rw [heq]
    cases hstep with
    | op => exact ⟨fun op hop => h.pending op (.tail _ hop), h.recheckNow⟩
    | wake | listFailed | list | readNow | readEpoch | sample | cleanEnd | cleanListed | build
      | select | rest | subscribed | unsubscribed | visited | unvisited =>
        exact ⟨by simp [Sweep.asleep], by simp [Sweep.asleep]⟩
    | cleanGone | kill => exact ⟨fun op hop => isRemoval_of_mem hop, nofun⟩
    | readRecheckNow =>
      refine ⟨nofun, ?_⟩
      rintro _ _ _ _ ⟨⟩
      exact Nat.le_refl _
  | tick =>
    refine ⟨h.pending, ?_⟩
    intro ttl id recheckNow todo hpc
    exact Nat.le_add_right_of_le (h.recheckNow ttl id recheckNow todo hpc)
  | create =>
    rw [step]
    split
    · exact h
    · exact ⟨h.pending, h.recheckNow⟩
  | setWallClock | setStatus | output | subscribe | unsubscribe | mapOp | leave =>
    exact ⟨h.pending, h.recheckNow⟩

/-! ## which steps keep the candidates out of use -/

theorem safe_sweep_iff (hr : Sweeping w) (hs : Safe w) (a : SweepAction) :
    Safe (w.step (.sweep a)) ↔ Undisturbed w (.sweep a) := by
  refine ⟨?_, safe_sweep hr hs a⟩
  intro h
  cases a with
  | select =>
    intro ttl sample entries hw id hid s hs' hsid
    have hstep : w.step (.sweep .select) = { w with sweep :=
        ⟨[], .reaping ttl (selectExpired entries ttl sample.now sample.nowEpochMillis)⟩ } := by
      obtain ⟨d, now, epochMillis, sw⟩ := w
      cases hw
      rfl
    rw [hstep] at h
    exact h.silent id hid s hs' hsid
  | wake | list | readNow | readEpoch | sample | clean | build | checkSubscriber | readRecheckNow
    | checkActivity | kill | op => trivial

theorem mem_updateSessions {s' : BackendSession} :
    s' ∈ (updateSessions d id f).sessions ↔
      ∃ s ∈ d.sessions, (if s.sessionId = id then f s else s) = s' :=
  mem_map

theorem HasSession.of_update {id id' : String} (hf : ∀ s, (f s).sessionId = s.sessionId)
    (h : HasSession (updateSessions d id f) id') : HasSession d id' := by
  obtain ⟨s', hs', hid'⟩ := h
  obtain ⟨s, hs, rfl⟩ := mem_updateSessions.mp hs'
  refine ⟨s, hs, ?_⟩
  split at hid'
  · rwa [hf] at hid'
  · exact hid'

theorem safe_update_iff (h : Safe w) (id : String) (hf : ∀ s, (f s).sessionId = s.sessionId) :
    Safe { w with d := updateSessions w.d id f } ↔
      (id ∈ w.sweep.pc.candidates → ∀ s ∈ w.d.sessions, s.sessionId = id →
        Silent w.epochMillis w.sweep.pc.reapTtl (f s)) := by
  constructor
  · intro h' hid s hs hsid
    refine h'.silent id hid (f s) ?_ ((hf s).trans hsid)
    exact mem_updateSessions.mpr ⟨s, hs, if_pos hsid⟩
  intro hP
  refine ⟨?_, ?_, ?_⟩
  · intro id' hid' s' hs' hsid'
    obtain ⟨s, hs, rfl⟩ := mem_updateSessions.mp hs'
    split at hsid'
    next hsid =>
      rw [if_pos hsid]
      have heq : id = id' := by rw [← hsid', hf, hsid]
      exact hP (heq ▸ hid') s hs hsid
    next hne =>
      rw [if_neg hne]
      exact h.silent id' hid' s hs hsid'
  · intro ttl id' stage todo hpc hid'
    exact h.unsubscribed ttl id' stage todo hpc (hid'.of_update hf)
  · intro ttl id' todo hpc hid'
    exact h.unvisited ttl id' todo hpc (hid'.of_update hf)

theorem safe_setWallClock_iff (h : Safe w) (millis : Nat) :
    Safe (w.step (.setWallClock millis)) ↔ Undisturbed w (.setWallClock millis) := by
  constructor
  · intro h' id hid s hs hsid
    exact (h'.silent id hid s hs hsid).output
  intro hP
  refine ⟨?_, h.unsubscribed, h.unvisited⟩
  intro id hid s hs hsid
  exact ⟨(h.silent id hid s hs hsid).status, hP id hid s hs hsid⟩

theorem safe_subscribe_iff (h : Safe w) (id : String) :
    Safe (w.step (.subscribe id)) ↔ Undisturbed w (.subscribe id) := by
  constructor
  · intro h' ttl stage todo hpc hid
    have hsub := h'.unsubscribed ttl id stage todo hpc hid
    rw [show (w.step (.subscribe id)).d.subscribed = update w.d.subscribed id true from
      rfl, update_self] at hsub
    cases hsub
  intro hP
  refine ⟨h.silent, ?_, h.unvisited⟩
  intro ttl id' stage todo hpc hid'
  show update w.d.subscribed id true id' = false
  have hne : id' ≠ id := by
    rintro rfl
    exact hP ttl stage todo hpc hid'
  rw [update_of_ne hne]
  exact h.unsubscribed ttl id' stage todo hpc hid'

theorem safe_touch_iff (h : Safe w) (id : String) :
    Safe (w.step (.mapOp (.touch id))) ↔ Undisturbed w (.mapOp (.touch id)) := by
  constructor
  · intro h' ttl todo hpc hid
    have hlt := h'.unvisited ttl id todo hpc hid w.now (AList.lookup_insert w.d.lastActivity)
    have hnow : (w.step (.mapOp (.touch id))).now = w.now := rfl
    omega
  intro hP
  refine ⟨h.silent, h.unsubscribed, ?_⟩
  intro ttl id' todo hpc hid' last hlast
  obtain ⟨rfl, -⟩ | ⟨-, hlast⟩ := FiniteMap.lookup_insert_eq_some_iff.mp hlast
  · exact absurd hid' (hP ttl todo hpc)
  · exact h.unvisited ttl id' todo hpc hid' last hlast

theorem safe_create_iff (h : Safe w) (id : String) (status : SessionStatus) :
    Safe (w.step (.create id status)) ↔ Undisturbed w (.create id status) := by
  rw [step]
  split
  next hany =>
    obtain ⟨s, hs, hid⟩ := any_eq_true.mp hany
    exact ⟨fun _ _ => ⟨s, hs, of_decide_eq_true hid⟩, fun _ => h⟩
  next hany =>
    have hno : ¬ HasSession w.d id := by
      rintro ⟨s, hs, hid⟩
      exact hany (any_eq_true.mpr ⟨s, hs, decide_eq_true hid⟩)
    constructor
    · intro h' hid
      have hlt := (h'.silent id hid ⟨id, status, w.epochMillis⟩
        (mem_append.mpr (.inr (.head _))) rfl).output
      have hzero : w.epochMillis - w.epochMillis = 0 := Nat.sub_self _
      cases hzero ▸ hlt
    intro hP
    have hmem : ∀ id' ∈ w.sweep.pc.candidates,
        ∀ s ∈ w.d.sessions ++ [⟨id, status, w.epochMillis⟩],
          s.sessionId = id' → s ∈ w.d.sessions := by
      intro id' hid' s hs hsid
      obtain hs | hs := mem_append.mp hs
      · exact hs
      · rw [mem_singleton.mp hs] at hsid
        have heq : id = id' := hsid
        exact absurd (hP (heq ▸ hid')) hno
    have hhas : ∀ id' ∈ w.sweep.pc.candidates,
        HasSession { w.d with sessions := w.d.sessions ++ [⟨id, status, w.epochMillis⟩] } id' →
          HasSession w.d id' := by
      rintro id' hid' ⟨s, hs, hsid⟩
      exact ⟨s, hmem id' hid' s hs hsid, hsid⟩
    refine ⟨?_, ?_, ?_⟩
    · intro id' hid' s hs hsid
      exact h.silent id' hid' s (hmem id' hid' s hs hsid) hsid
    · intro ttl id' stage todo hpc hid'
      have hc : id' ∈ w.sweep.pc.candidates := by
        rw [show w.sweep.pc = _ from hpc]
        exact .head _
      exact h.unsubscribed ttl id' stage todo hpc (hhas id' hc hid')
    · intro ttl id' todo hpc hid'
      have hc : id' ∈ w.sweep.pc.candidates := by
        rw [show w.sweep.pc = _ from hpc]
        exact .head _
      exact h.unvisited ttl id' todo hpc (hhas id' hc hid')

theorem safe_step_iff (w : ReaperWorld) (a : ReaperAction) (hr : Sweeping w) (h : Safe w) :
    Safe (w.step a) ↔ Undisturbed w a := by
  cases a with
  | sweep a => exact safe_sweep_iff hr h a
  | tick =>
    refine ⟨fun _ => trivial, fun _ => ?_⟩
    exact h.mono rfl (fun _ hs => hs) (fun _ hid => hid) (fun _ _ hl => hl) (Nat.le_add_right _ _)
      rfl
  | setWallClock millis => exact safe_setWallClock_iff h millis
  | setStatus id status =>
    refine (safe_update_iff (f := fun s => { s with status := status }) h id fun _ => rfl).trans ?_
    constructor
    · rintro hP hid ⟨s, hs, hsid⟩
      exact (hP hid s hs hsid).status
    · intro hP hid s hs hsid
      exact ⟨hP hid ⟨s, hs, hsid⟩, (h.silent id hid s hs hsid).output⟩
  | output id =>
    refine (safe_update_iff (f := fun s => { s with lastOutputAt := w.epochMillis }) h id
      fun _ => rfl).trans ?_
    constructor
    · rintro hP hid ⟨s, hs, hsid⟩
      have hlt := (hP hid s hs hsid).output
      have hzero : w.epochMillis - w.epochMillis = 0 := Nat.sub_self _
      cases hzero ▸ hlt
    · intro hP hid s hs hsid
      exact absurd ⟨s, hs, hsid⟩ (hP hid)
  | subscribe id => exact safe_subscribe_iff h id
  | unsubscribe id =>
    refine ⟨fun _ => trivial, fun _ => ?_⟩
    refine h.mono rfl (fun _ hs => hs) ?_ (fun _ _ hl => hl) (Nat.le_refl _) rfl
    intro id' hid'
    show update w.d.subscribed id false id' = false
    by_cases hne : id' = id
    · rw [hne, update_self]
    · rw [update_of_ne hne]
      exact hid'
  | mapOp op =>
    cases op with
    | touch id => exact safe_touch_iff h id
    | forgetClaim | removeProvenance | removeReplacements | removeActivity =>
      exact ⟨fun _ => trivial, fun _ => h.apply nofun⟩
  | create id status => exact safe_create_iff h id status
  | leave =>
    refine ⟨fun _ => trivial, fun _ => ?_⟩
    refine h.mono rfl ?_ (fun _ hid => hid) (fun _ _ hl => hl) (Nat.le_refl _) rfl
    intro s hs
    exact (mem_filter.mp hs).1

def BeforeSweep (w : ReaperWorld) : Prop := w.sweep = Sweep.asleep

theorem BeforeSweep.sweeping (h : BeforeSweep w) : Sweeping w := by
  refine ⟨?_, ?_⟩
  · rw [h]
    nofun
  · rw [h]
    nofun

theorem BeforeSweep.safe (h : BeforeSweep w) : Safe w := by
  refine safe_of_idle ?_
  rw [h]
  exact ⟨rfl, nofun⟩

theorem along_safe_iff (h : BeforeSweep w) (as : List ReaperAction) :
    Run.Along step Safe w as ↔ Run.StepsOk step Undisturbed w as :=
  Run.along_iff_stepsOk (fun _ a hr => sweeping_step hr a) safe_step_iff h.sweeping h.safe as

/-- In a run whose steps do not disturb the sweep, every session that is killed satisfies all the
conditions of `select_expired` when the sweep calls `kill_with_reason`. -/
theorem kill_justified {w : ReaperWorld} (h : BeforeSweep w) (as : List ReaperAction)
    (hok : Run.StepsOk step Undisturbed w as) (pre post : List ReaperAction) (ok : Bool)
    (heq : as = pre ++ .sweep (.kill ok) :: post) (ttl : Nat) (id : String) (todo : List String)
    (hpc : (Run.run step w pre).sweep.pc = .checking ttl id .unvisited todo) :
    Justified (Run.run step w pre) ttl id := by
  have halong := (along_safe_iff h as).mpr hok
  rw [heq] at halong
  exact halong.at_prefix.justified hpc

/-! ## two sessions in one sweep -/

/-- two idle sessions that nobody has looked at since the daemon started, an hour ago -/
def sampleWorld : ReaperWorld where
  d :=
    { DaemonState.empty 0 with
      sessions := [⟨"s", .idle, 0⟩, ⟨"t", .idle, 0⟩]
      lastActivity := (∅ : FiniteMap String Nat).insert "t" 1 |>.insert "s" 0 }
  now := 3600000000001
  epochMillis := 3600000
  sweep := Sweep.asleep

/-- the sweep up to the selection, with a ttl of one minute -/
def sweepUntilSelect : List ReaperAction :=
  [.sweep (.wake false 1), .sweep (.list (some [⟨"s", .idle, 0⟩, ⟨"t", .idle, 0⟩])),
    .sweep .readNow, .sweep .readEpoch, .sweep (.sample ["s", "t"]), .sweep .clean, .sweep .clean,
    .sweep .clean, .sweep .build, .sweep .build, .sweep .select]

def recheck : List ReaperAction :=
  [.sweep .checkSubscriber, .sweep .readRecheckNow, .sweep .checkActivity]

theorem silent_sample {s : BackendSession} (hs : s ∈ sampleWorld.d.sessions) :
    Silent 3600000 60000000000 s := by
  have hall : ∀ s ∈ sampleWorld.d.sessions, isReapProtectedStatus s.status = false ∧
      ttlMillis 60000000000 < 3600000 - s.lastOutputAt := by decide
  exact ⟨(hall s hs).1, (hall s hs).2⟩

theorem kill_justified_first :
    Justified (Run.run step sampleWorld (sweepUntilSelect ++ recheck)) 60000000000 "s" := by
  refine kill_justified (w := sampleWorld) rfl
    (sweepUntilSelect ++ recheck ++ [.sweep (.kill true)]) ?_ (sweepUntilSelect ++ recheck) [] true
    rfl 60000000000 "s" ["t"] rfl
  refine ⟨trivial, trivial, trivial, trivial, trivial, trivial, trivial, trivial, trivial, trivial,
    ?_, trivial, trivial, trivial, trivial, trivial⟩
  intro ttl sample entries hw id hid s hs hsid
  cases hw
  exact silent_sample hs

/-- while the sweep kills `s`, the queue gives `t` a prompt: `t` is busy and prints -/
def disturbedSweep : List ReaperAction :=
  sweepUntilSelect ++ recheck ++ [.sweep (.kill true), .setStatus "t" .thinking, .output "t",
    .sweep .op, .sweep .op, .sweep .op, .sweep .op] ++ recheck

theorem busy_session_killed :
    BeforeSweep sampleWorld ∧
      (Run.run step sampleWorld disturbedSweep).sweep =
        ⟨[], .checking 60000000000 "t" .unvisited []⟩ ∧
      ⟨"t", .thinking, 3600000⟩ ∈ (Run.run step sampleWorld disturbedSweep).d.sessions ∧
      (Run.run step sampleWorld (disturbedSweep ++ [.sweep (.kill true)])).d.sessions = [] ∧
      ¬ Justified (Run.run step sampleWorld disturbedSweep) 60000000000 "t" := by
  have hmem : ⟨"t", .thinking, 3600000⟩ ∈ (Run.run step sampleWorld disturbedSweep).d.sessions := by
    decide
  refine ⟨rfl, rfl, hmem, rfl, ?_⟩
  intro h
  exact absurd (h _ hmem rfl).2.2.status (by decide)

end ReaperWorld
end CcPanes

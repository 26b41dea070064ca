import CcPanes.Foundation.Run
import CcPanes.Terminal.LaunchCancellation
import Mathlib.Data.List.Nodup
import Mathlib.Tactic.ByContra

/-!
# No cancellation is lost
-/

namespace CcPanes
open List Option Function

namespace LaunchCancellation

open Run TerminalService

variable {s : TerminalService} {launchId : String} {id : String}

/-! ## the claim -/

def CancelHonoured (w : World) : Prop :=
  ∀ c call, w.cancels c = some call → call.result = some true →
    ∀ i launchId, call.covers i = true → (w.execs i).launchId = some launchId →
      trim launchId ≠ "" → trim launchId = trim call.launchId →
      ∀ session ∈ w.service.sessions, session.sessionId ≠ i

/-- call `i` keeps the launch id `key` busy, by its reservation or by its live session -/
def Occupies (w : World) (i : Nat) (key : String) : Prop :=
  (w.execs i).reservation = some key ∨
    ∃ session ∈ w.service.sessions, session.sessionId = i ∧
      ∃ launchId, session.launchId = some launchId ∧ trim launchId = key

def Exclusive (w : World) : Prop :=
  (w.service.sessions.map TerminalSession.sessionId).Nodup ∧
    ∀ key ≠ "", ∀ i j, Occupies w i key → Occupies w j key → i = j

/-- no `cancel_launch` call comes more than 300 seconds after the marker of a launch under way -/
def WithinLifetime (w : World) : Action → Prop
  | .cancel _ _ =>
    ∀ i launchId createdAt, (w.execs i).stage = .reserved → (w.execs i).launchId = some launchId →
      w.service.cancelledLaunches launchId = some createdAt → w.now ≤ createdAt + markerLifetimeMs
  | _ => True

def Fits (launchId : Option String) : Prop :=
  ∀ id, launchId = some id → trim id ≠ "" → trim id = id

/-- `create_session` is given no id with surrounding whitespace, unless it is blank -/
def TrimmedId : Action → Prop
  | .reserve _ launchId => Fits launchId
  | _ => True

def Plain (id : String) : Prop := trim id = id ∧ id ≠ ""

/-! ## reservations and sessions -/

structure RegistryInv (active : List String) (sessions : List TerminalSession)
    (execs : Nat → Exec) : Prop where
  fits : ∀ i, Fits (execs i).launchId
  active : ∀ i key, (execs i).reservation = some key → key ∈ active
  exclusive : ∀ i j key, (execs i).reservation = some key → (execs j).reservation = some key →
    i = j
  owner : ∀ t ∈ sessions, (execs t.sessionId).launchId = t.launchId ∧
    (execs t.sessionId).stage ≠ .idle ∧ (execs t.sessionId).stage ≠ .reserved
  distinct : (sessions.map TerminalSession.sessionId).Nodup
  single : ∀ t ∈ sessions, ∀ u ∈ sessions, ∀ key, Plain key → t.launchId = some key →
    u.launchId = some key → t.sessionId = u.sessionId
  reserved : ∀ t ∈ sessions, ∀ i key, t.launchId = some key → (execs i).reservation = some key →
    t.sessionId = i

theorem nonBlank_eq_some {launchId : Option String} :
    nonBlank launchId = some id ↔ launchId = some id ∧ trim id ≠ "" := by
  rw [nonBlank, filter_eq_some_iff, decide_eq_true_eq]

theorem Fits.plain {launchId : Option String} (h : Fits launchId) (hl : launchId = some id)
    (hb : trim id ≠ "") : Plain id := by
  have hid := h id hl hb
  exact ⟨hid, hid ▸ hb⟩

theorem Plain.nonBlank (h : Plain id) : trim id ≠ "" := by
  rw [h.1]
  exact h.2

theorem reservation_eq_some {x : Exec} {key : String} (hf : Fits x.launchId) :
    x.reservation = some key ↔
      (x.stage = .reserved ∨ x.stage = .registered) ∧ x.launchId = some key ∧ Plain key := by
  have hmap : (nonBlank x.launchId).map trim = some key ↔ x.launchId = some key ∧ Plain key := by
    rw [map_eq_some_iff]
    constructor
    · rintro ⟨id, hid, rfl⟩
      obtain ⟨hl, hb⟩ := nonBlank_eq_some.mp hid
      have hp := hf.plain hl hb
      rw [hp.1]
      exact ⟨hl, hp⟩
    · rintro ⟨hl, hp⟩
      exact ⟨key, nonBlank_eq_some.mpr ⟨hl, hp.nonBlank⟩, hp.1⟩
  unfold Exec.reservation
  cases hs : x.stage with
  | idle => simp
  | reserved => simpa using hmap
  | registered => simpa using hmap
  | done => simp

theorem mem_dropReservation {r : Option String} {key : String} :
    key ∈ (s.dropReservation r).activeLaunches ↔ key ∈ s.activeLaunches ∧ r ≠ some key := by
  cases r with
  | none => simp [dropReservation]
  | some k =>
    simp only [dropReservation, mem_filter, decide_eq_true_eq, ne_eq, some.injEq]
    exact and_congr Iff.rfl ⟨fun h e => h e.symm, fun h e => h e.symm⟩

theorem sessions_dropReservation (s : TerminalService) (r : Option String) :
    (s.dropReservation r).sessions = s.sessions := by
  cases r <;> rfl

theorem cancelledLaunches_dropReservation (s : TerminalService) (r : Option String) :
    (s.dropReservation r).cancelledLaunches = s.cancelledLaunches := by
  cases r <;> rfl

namespace RegistryInv

variable {active : List String} {sessions : List TerminalSession} {execs : Nat → Exec}
  {active' : List String} {i : Nat} {launchId : Option String}

theorem init : RegistryInv [] [] (fun _ => ⟨.idle, none⟩) where
  fits _ _ h := nomatch h
  active _ _ h := absurd h (by simp [Exec.reservation])
  exclusive _ _ _ h := absurd h (by simp [Exec.reservation])
  owner _ h := nomatch h
  distinct := nodup_nil
  single _ h := nomatch h
  reserved _ h := nomatch h

theorem retire (h : RegistryInv active sessions execs) {x : Exec} (hx : x.stage = .done)
    (hf : Fits x.launchId) (hown : ∀ t ∈ sessions, t.sessionId = i → x.launchId = t.launchId)
    (ha : ∀ key, key ∈ active → (execs i).reservation ≠ some key → key ∈ active') :
    RegistryInv active' sessions (Function.update execs i x) := by
  have hres : ∀ j key, (update execs i x j).reservation = some key →
      j ≠ i ∧ (execs j).reservation = some key := by
    intro j key hj
    by_cases hji : j = i
    · rw [hji, update_self, Exec.reservation, hx] at hj
      cases hj
    · rw [update_of_ne hji] at hj
      exact ⟨hji, hj⟩
  constructor
  · intro j
    by_cases hji : j = i
    · rw [hji, update_self]
      exact hf
    · rw [update_of_ne hji]
      exact h.fits j
  · intro j key hj
    obtain ⟨hji, hj'⟩ := hres j key hj
    exact ha key (h.active j key hj') fun hi => hji (h.exclusive j i key hj' hi)
  · intro j k key hj hk
    exact h.exclusive j k key (hres j key hj).2 (hres k key hk).2
  · intro t htm
    by_cases hti : t.sessionId = i
    · rw [hti, update_self]
      exact ⟨hown t htm hti, by simp [hx], by simp [hx]⟩
    · rw [update_of_ne hti]
      exact h.owner t htm
  · exact h.distinct
  · exact h.single
  · intro t htm j key htk hj
    exact h.reserved t htm j key htk (hres j key hj).2

theorem endExec (h : RegistryInv active sessions execs) (i : Nat)
    (ha : ∀ key, key ∈ active → (execs i).reservation ≠ some key → key ∈ active') :
    RegistryInv active' sessions (Function.update execs i { execs i with stage := .done }) := by
  refine h.retire (x := { execs i with stage := .done }) rfl (h.fits i) (fun t ht hti => ?_) ha
  show (execs i).launchId = t.launchId
  rw [← hti]
  exact (h.owner t ht).1

theorem refuse (h : RegistryInv active sessions execs) (hidle : (execs i).stage = .idle)
    (hf : Fits launchId) :
    RegistryInv active sessions (Function.update execs i ⟨.done, launchId⟩) := by
  refine h.retire rfl hf (fun t htm hti => ?_) fun key hk _ => hk
  have hne := (h.owner t htm).2.1
  rw [hti] at hne
  exact absurd hidle hne

theorem start (h : RegistryInv active sessions execs)
    (hidle : (execs i).stage = .idle) (hf : Fits launchId)
    (hsub : ∀ key ∈ active, key ∈ active')
    (hkey : ∀ id, launchId = some id → Plain id →
      id ∈ active' ∧ id ∉ active ∧ ∀ t ∈ sessions, t.launchId ≠ some id) :
    RegistryInv active' sessions (Function.update execs i ⟨.reserved, launchId⟩) := by
  have hself : ∀ key, (⟨.reserved, launchId⟩ : Exec).reservation = some key ↔
      launchId = some key ∧ Plain key := by
    intro key
    rw [reservation_eq_some hf]
    simp
  have hfree : ∀ j key, launchId = some key → Plain key → (execs j).reservation ≠ some key :=
    fun j key hl hne hj => (hkey key hl hne).2.1 (h.active j key hj)
  constructor
  · intro j
    by_cases hji : j = i
    · rw [hji, update_self]
      exact hf
    · rw [update_of_ne hji]
      exact h.fits j
  · intro j key hj
    by_cases hji : j = i
    · rw [hji, update_self, hself] at hj
      exact (hkey key hj.1 hj.2).1
    · rw [update_of_ne hji] at hj
      exact hsub key (h.active j key hj)
  · intro j k key hj hk
    by_cases hji : j = i
    · rw [hji, update_self, hself] at hj
      by_cases hki : k = i
      · rw [hji, hki]
      · rw [update_of_ne hki] at hk
        exact absurd hk (hfree k key hj.1 hj.2)
    · rw [update_of_ne hji] at hj
      by_cases hki : k = i
      · rw [hki, update_self, hself] at hk
        exact absurd hj (hfree j key hk.1 hk.2)
      · rw [update_of_ne hki] at hk
        exact h.exclusive j k key hj hk
  · intro t htm
    have hti : t.sessionId ≠ i := by
      intro e
      have hne := (h.owner t htm).2.1
      rw [e] at hne
      exact hne hidle
    rw [update_of_ne hti]
    exact h.owner t htm
  · exact h.distinct
  · exact h.single
  · intro t htm j key htk hj
    by_cases hji : j = i
    · rw [hji, update_self, hself] at hj
      exact absurd htk ((hkey key hj.1 hj.2).2.2 t htm)
    · rw [update_of_ne hji] at hj
      exact h.reserved t htm j key htk hj

theorem register (h : RegistryInv active sessions execs) (hi : (execs i).stage = .reserved) :
    RegistryInv active (⟨i, (execs i).launchId⟩ :: sessions)
      (Function.update execs i { execs i with stage := .registered }) := by
  have hres : ∀ j, (update execs i { execs i with stage := .registered } j).reservation
      = (execs j).reservation := by
    intro j
    by_cases hji : j = i
    · rw [hji, update_self]
      show (nonBlank (execs i).launchId).map trim = (execs i).reservation
      rw [Exec.reservation, hi]
    · rw [update_of_ne hji]
  have hnew : ∀ t ∈ sessions, t.sessionId ≠ i := by
    intro t ht e
    have hne := (h.owner t ht).2.2
    rw [e] at hne
    exact hne hi
  have hown : ∀ key, (execs i).launchId = some key → Plain key →
      (execs i).reservation = some key := fun key hl hne =>
    (reservation_eq_some (h.fits i)).mpr ⟨.inl hi, hl, hne⟩
  constructor
  · intro j
    by_cases hji : j = i
    · rw [hji, update_self]
      exact h.fits i
    · rw [update_of_ne hji]
      exact h.fits j
  · intro j key hj
    rw [hres] at hj
    exact h.active j key hj
  · intro j k key hj hk
    rw [hres] at hj hk
    exact h.exclusive j k key hj hk
  · intro t ht
    rcases mem_cons.mp ht with rfl | ht
    · rw [update_self]
      exact ⟨rfl, by simp, by simp⟩
    · rw [update_of_ne (hnew t ht)]
      exact h.owner t ht
  · rw [map_cons, nodup_cons]
    refine ⟨fun hm => ?_, h.distinct⟩
    obtain ⟨t, ht, e⟩ := mem_map.mp hm
    exact hnew t ht e
  · intro t ht u hu key hne htk huk
    rcases mem_cons.mp ht with rfl | ht
    · rcases mem_cons.mp hu with rfl | hu
      · rfl
      · exact (h.reserved u hu i key huk (hown key htk hne)).symm
    · rcases mem_cons.mp hu with rfl | hu
      · exact h.reserved t ht i key htk (hown key huk hne)
      · exact h.single t ht u hu key hne htk huk
  · intro t ht j key htk hj
    rw [hres] at hj
    rcases mem_cons.mp ht with rfl | ht
    · have hne : Plain key := ((reservation_eq_some (h.fits j)).mp hj).2.2
      exact h.exclusive i j key (hown key htk hne) hj
    · exact h.reserved t ht j key htk hj

theorem removeSession (h : RegistryInv active sessions execs) (p : TerminalSession → Bool) :
    RegistryInv active (sessions.filter p) execs := { h with
  owner t ht := h.owner t (mem_filter.mp ht).1
  distinct := h.distinct.sublist (filter_sublist.map _)
  single t ht u hu := h.single t (mem_filter.mp ht).1 u (mem_filter.mp hu).1
  reserved t ht := h.reserved t (mem_filter.mp ht).1 }

end RegistryInv

theorem cancelLaunch_activeLaunches (s : TerminalService) (now : Nat) (launchId : String) :
    (s.cancelLaunch now launchId).1.activeLaunches = s.activeLaunches := by
  unfold cancelLaunch
  dsimp only
  split <;> rfl

theorem cancelLaunch_sessions (s : TerminalService) (now : Nat) (launchId : String) :
    (s.cancelLaunch now launchId).1.sessions = s.sessions := by
  unfold cancelLaunch
  dsimp only
  split <;> rfl

theorem mem_cancelLaunch {now : Nat} (hne : trim launchId ≠ "") {sessionId : Nat} :
    sessionId ∈ (s.cancelLaunch now launchId).2 ↔
      ∃ t ∈ s.sessions, t.launchId = some (trim launchId) ∧ t.sessionId = sessionId := by
  unfold cancelLaunch
  rw [if_neg hne, List.mem_map]
  simp only [mem_filter, decide_eq_true_eq, and_assoc]

theorem cancelLaunch_marker {now : Nat} {launchId key : String}
    (hfree : ∀ t ∈ s.sessions, t.launchId ≠ some key)
    (hkey : (trim launchId = key ∧ key ≠ "") ∨ (s.cancelledLaunches key).isSome = true ∧
      ∀ createdAt, s.cancelledLaunches key = some createdAt → now ≤ createdAt + markerLifetimeMs) :
    ((s.cancelLaunch now launchId).1.cancelledLaunches key).isSome = true := by
  unfold cancelLaunch
  dsimp only
  split_ifs with hb hempty
  · rcases hkey with ⟨h, hne⟩ | ⟨h, _⟩
    · exact absurd (h.symm.trans hb) hne
    · exact h
  · by_cases hk : key = trim launchId
    · subst hk
      simp
    · obtain ⟨h, hyoung⟩ := hkey.resolve_left fun h => hk h.1.symm
      obtain ⟨createdAt, hc⟩ := isSome_iff_exists.mp h
      simp [update_of_ne hk, hc, hyoung createdAt hc]
  by_cases hk : key = trim launchId
  · -- the launch would have a session
    subst hk
    refine absurd ?_ hempty
    rw [List.isEmpty_iff, List.map_eq_nil_iff, List.filter_eq_nil_iff]
    exact fun t ht => by simpa using hfree t ht
  · obtain ⟨h, hyoung⟩ := hkey.resolve_left fun h => hk h.1.symm
    obtain ⟨createdAt, hc⟩ := isSome_iff_exists.mp h
    simp [update_of_ne hk, hc, hyoung createdAt hc]

attribute [local irreducible] cancelLaunch

/-! ## covered calls -/

/-- `cancel_launch` call `call` is about the launch `key` of `create_session` call `i` -/
structure Aims (execs : Nat → Exec) (call : CancelCall) (i : Nat) (key : String) : Prop where
  covers : call.covers i = true
  launchId : (execs i).launchId = some key
  plain : Plain key
  same : trim call.launchId = key

structure CallGood (w : World) (call : CancelCall) : Prop where
  started : ∀ i, call.covers i = true → (w.execs i).stage ≠ .idle
  marker : call.result ≠ some false → ∀ i key, Aims w.execs call i key →
    (w.execs i).stage = .reserved → (w.service.cancelledLaunches key).isSome = true
  pending : call.result ≠ some false → ∀ i key, Aims w.execs call i key →
    ∀ t ∈ w.service.sessions, t.sessionId = i → call.result = none ∧ i ∈ call.pending

structure LaunchInv (w : World) : Prop where
  registry : RegistryInv w.service.activeLaunches w.service.sessions w.execs
  calls : ∀ c call, w.cancels c = some call → CallGood w call

theorem CallGood.mono {w w' : World} {call : CancelCall} (h : CallGood w call)
    (hid : ∀ i, (w.execs i).stage ≠ .idle →
      (w'.execs i).stage ≠ .idle ∧ (w'.execs i).launchId = (w.execs i).launchId)
    (hm : ∀ i key, Aims w.execs call i key → (w'.execs i).stage = .reserved →
      (w.execs i).stage = .reserved ∧ ((w.service.cancelledLaunches key).isSome = true →
        (w'.service.cancelledLaunches key).isSome = true))
    (hs : call.result ≠ some false → ∀ i key, Aims w.execs call i key →
      ∀ t ∈ w'.service.sessions, t.sessionId = i → ∃ u ∈ w.service.sessions, u.sessionId = i) :
    CallGood w' call := by
  have haim : ∀ i key, Aims w'.execs call i key → Aims w.execs call i key := by
    intro i key ha
    have hl := (hid i (h.started i ha.covers)).2
    exact ⟨ha.covers, hl ▸ ha.launchId, ha.plain, ha.same⟩
  refine ⟨fun i hc => (hid i (h.started i hc)).1, fun hr i key ha hst => ?_, ?_⟩
  · obtain ⟨hst', hk⟩ := hm i key (haim i key ha) hst
    exact hk (h.marker hr i key (haim i key ha) hst')
  · intro hr i key ha t ht hti
    obtain ⟨u, hu, hui⟩ := hs hr i key (haim i key ha) t ht hti
    exact h.pending hr i key (haim i key ha) u hu hui

theorem setExec_other (w : World) {i j : Nat} (x : Exec) (h : j ≠ i) :
    (w.setExec i x).execs j = w.execs j := update_of_ne h ..

theorem setExec_self (w : World) (i : Nat) (x : Exec) : (w.setExec i x).execs i = x :=
  update_self ..

theorem setCancel_self (w : World) (c : Nat) (call : CancelCall) :
    (w.setCancel c call).cancels c = some call := update_self ..

theorem setCancel_other (w : World) {c c' : Nat} (call : CancelCall) (h : c' ≠ c) :
    (w.setCancel c call).cancels c' = w.cancels c' := update_of_ne h ..

theorem endExec_other (w : World) {i j : Nat} (h : j ≠ i) : (w.endExec i).execs j = w.execs j :=
  update_of_ne h ..

theorem endExec_self (w : World) (i : Nat) :
    (w.endExec i).execs i = { w.execs i with stage := .done } := update_self ..

theorem endExec_started (w : World) (i j : Nat) (h : (w.execs j).stage ≠ .idle) :
    ((w.endExec i).execs j).stage ≠ .idle ∧
      ((w.endExec i).execs j).launchId = (w.execs j).launchId := by
  by_cases hji : j = i
  · subst hji
    rw [endExec_self]
    exact ⟨by simp, rfl⟩
  · rw [endExec_other w hji]
    exact ⟨h, rfl⟩

theorem endExec_reserved (w : World) {i j : Nat} (h : ((w.endExec i).execs j).stage = .reserved) :
    j ≠ i ∧ (w.execs j).stage = .reserved := by
  by_cases hji : j = i
  · subst hji
    rw [endExec_self] at h
    cases h
  · rw [endExec_other w hji] at h
    exact ⟨hji, h⟩

namespace LaunchInv

variable {w : World} {i : Nat}

theorem holds (h : LaunchInv w) {key : String} (hst : (w.execs i).stage = .reserved)
    (hl : (w.execs i).launchId = some key) (hp : Plain key) : (w.execs i).reservation = some key :=
  (reservation_eq_some (h.registry.fits i)).mpr ⟨.inl hst, hl, hp⟩

theorem endExec (h : LaunchInv w) (i : Nat) : LaunchInv (w.endExec i) where
  registry := by
    show RegistryInv _ (w.service.dropReservation _).sessions _
    rw [sessions_dropReservation]
    exact h.registry.endExec i fun key hk hne => mem_dropReservation.mpr ⟨hk, hne⟩
  calls := by
    intro c call hc
    refine (h.calls c call hc).mono (fun j => endExec_started w i j) ?_ ?_
    · intro j key _ hst
      refine ⟨(endExec_reserved w hst).2, fun hk => ?_⟩
      show ((w.service.dropReservation _).cancelledLaunches key).isSome = true
      rw [cancelledLaunches_dropReservation]
      exact hk
    · intro _ j key _ t ht hti
      have ht' : t ∈ (w.service.dropReservation (w.execs i).reservation).sessions := ht
      rw [sessions_dropReservation] at ht'
      exact ⟨t, ht', hti⟩

theorem consume (h : LaunchInv w) {id : String} (hst : (w.execs i).stage = .reserved)
    (hl : (w.execs i).launchId = some id) :
    LaunchInv (World.endExec { w with service := w.service.removeMarker id } i) where
  registry := by
    show RegistryInv _ ((w.service.removeMarker id).dropReservation _).sessions _
    rw [sessions_dropReservation]
    exact h.registry.endExec i fun key hk hne => mem_dropReservation.mpr ⟨hk, hne⟩
  calls := by
    intro c call hc
    refine (h.calls c call hc).mono
      (fun j => endExec_started { w with service := w.service.removeMarker id } i j) ?_ ?_
    · intro j key ha hsj
      obtain ⟨hji, hsj'⟩ :=
        endExec_reserved { w with service := w.service.removeMarker id } hsj
      refine ⟨hsj', fun hk => ?_⟩
      have hkey : key ≠ id := by
        rintro rfl
        exact hji (h.registry.exclusive j i key (h.holds hsj' ha.launchId ha.plain)
          (h.holds hst hl ha.plain))
      show (((w.service.removeMarker id).dropReservation _).cancelledLaunches key).isSome = true
      rw [cancelledLaunches_dropReservation]
      show (update w.service.cancelledLaunches id none key).isSome = true
      rw [update_of_ne hkey]
      exact hk
    · intro _ j key _ t ht hti
      have ht' : t ∈ ((w.service.removeMarker id).dropReservation
        (w.execs i).reservation).sessions := ht
      rw [sessions_dropReservation] at ht'
      exact ⟨t, ht', hti⟩

theorem check (h : LaunchInv w) (hst : (w.execs i).stage = .reserved) (stage : String) :
    LaunchInv (w.check i stage) := by
  unfold World.check ensureLaunchActive
  cases hn : nonBlank (w.execs i).launchId with
  | none => exact h
  | some id =>
    cases hm : w.service.cancelledLaunches id with
    | none =>
      simp only [hm]
      exact h
    | some createdAt =>
      simp only [hm]
      exact h.consume hst (nonBlank_eq_some.mp hn).1

theorem register (h : LaunchInv w) (hst : (w.execs i).stage = .reserved) :
    LaunchInv (w.register i) := by
  unfold World.register registerSession
  cases hf : (w.execs i).launchId.filter fun id => (w.service.cancelledLaunches id).isSome with
  | some id => exact h.consume hst (filter_eq_some_iff.mp hf).1
  | none =>
    refine ⟨h.registry.register hst, fun c call hc => ?_⟩
    refine (h.calls c call hc).mono (fun j hj => ?_) ?_ ?_
    · by_cases hji : j = i
      · subst hji
        rw [setExec_self]
        exact ⟨by simp, rfl⟩
      · rw [setExec_other _ _ hji]
        exact ⟨hj, rfl⟩
    · intro j key _ hsj
      by_cases hji : j = i
      · subst hji
        rw [setExec_self] at hsj
        cases hsj
      · rw [setExec_other _ _ hji] at hsj
        exact ⟨hsj, id⟩
    intro hr j key ha t ht hti
    rcases mem_cons.mp ht with rfl | ht
    · -- a covered call finds the marker and does not get here
      have hij : i = j := hti
      subst hij
      have hmark := (h.calls c call hc).marker hr i key ha hst
      exact absurd hf (by simp [ha.launchId, Option.filter, hmark])
    · exact ⟨t, ht, hti⟩

theorem reserve (h : LaunchInv w) (hidle : (w.execs i).stage = .idle) {launchId : Option String}
    (hf : Fits launchId) : LaunchInv (w.reserve i launchId) := by
  have hcalls : ∀ (active : List String) (x : Exec) (c : Nat) (call : CancelCall),
      w.cancels c = some call → CallGood (World.setExec
        { w with service := { w.service with activeLaunches := active } } i x) call := by
    intro active x c call hc
    have hne : ∀ j, (w.execs j).stage ≠ .idle → j ≠ i := fun j hj e => hj (e ▸ hidle)
    refine (h.calls c call hc).mono (fun j hj => ?_) (fun j key ha hsj => ?_) ?_
    · rw [setExec_other _ _ (hne j hj)]
      exact ⟨hj, rfl⟩
    · have hji := hne j ((h.calls c call hc).started j ha.covers)
      rw [setExec_other _ _ hji] at hsj
      exact ⟨hsj, id⟩
    · exact fun _ j key _ t htm hti => ⟨t, htm, hti⟩
  unfold World.reserve reserveLaunch
  cases hn : nonBlank launchId with
  | none =>
    refine ⟨h.registry.start hidle hf (fun _ hk => hk) fun id hl hp => ?_, hcalls _ _⟩
    have hb : nonBlank launchId = some id := nonBlank_eq_some.mpr ⟨hl, hp.nonBlank⟩
    rw [hn] at hb
    cases hb
  | some id =>
    obtain ⟨hl, hb⟩ := nonBlank_eq_some.mp hn
    dsimp only
    split_ifs with hactive hsession
    · exact ⟨h.registry.refuse hidle hf, hcalls _ _⟩
    · exact ⟨h.registry.refuse hidle hf, hcalls _ _⟩
    refine ⟨h.registry.start hidle hf (fun _ hk => mem_cons_of_mem _ hk) ?_, hcalls _ _⟩
    intro id' hl' _
    cases hl.symm.trans hl'
    rw [hf id hl hb] at hactive hsession ⊢
    refine ⟨mem_cons_self, hactive, fun t htm e => hsession ?_⟩
    exact any_eq_true.mpr ⟨t, htm, decide_eq_true e⟩

theorem no_session (h : LaunchInv w) {key : String} (hst : (w.execs i).stage = .reserved)
    (hl : (w.execs i).launchId = some key) (hp : Plain key) :
    ∀ t ∈ w.service.sessions, t.launchId ≠ some key := by
  intro t ht htk
  have hti := h.registry.reserved t ht i key htk (h.holds hst hl hp)
  have howner := (h.registry.owner t ht).2.2
  rw [hti] at howner
  exact howner hst

theorem newCall (h : LaunchInv w) (c : Nat) (launchId : String) :
    CallGood (w.cancel c launchId)
      { launchId := launchId
        covers i := (w.execs i).stage != Stage.idle
        pending := (w.service.cancelLaunch w.now launchId).2
        result := none } := by
  constructor
  · intro i hc
    exact bne_iff_ne.mp hc
  · intro _ i key ha hst
    exact cancelLaunch_marker (h.no_session hst ha.launchId ha.plain)
      (.inl ⟨ha.same, ha.plain.2⟩)
  intro _ i key ha t ht hti
  refine ⟨rfl, ?_⟩
  have ht' : t ∈ (w.service.cancelLaunch w.now launchId).1.sessions := ht
  rw [cancelLaunch_sessions] at ht'
  obtain rfl : trim launchId = key := ha.same
  refine (mem_cancelLaunch ha.plain.2).mpr ⟨t, ht', ?_, hti⟩
  rw [← (h.registry.owner t ht').1, hti]
  exact ha.launchId

theorem cancel (h : LaunchInv w) {c : Nat} {launchId : String}
    (hlife : WithinLifetime w (.cancel c launchId)) : LaunchInv (w.cancel c launchId) where
  registry := by
    show RegistryInv (w.service.cancelLaunch w.now launchId).1.activeLaunches
      (w.service.cancelLaunch w.now launchId).1.sessions w.execs
    rw [cancelLaunch_activeLaunches, cancelLaunch_sessions]
    exact h.registry
  calls := by
    intro c' call hc
    by_cases hcc : c' = c
    · subst hcc
      rw [World.cancel, setCancel_self] at hc
      cases hc
      exact h.newCall c' launchId
    rw [World.cancel, setCancel_other _ _ hcc] at hc
    have hc' : w.cancels c' = some call := hc
    refine (h.calls c' call hc').mono (fun i hi => ⟨hi, rfl⟩) ?_ ?_
    · intro i key ha hst
      refine ⟨hst, fun hk => ?_⟩
      refine cancelLaunch_marker (h.no_session hst ha.launchId ha.plain) (.inr ⟨hk, ?_⟩)
      exact fun createdAt => hlife i key createdAt hst ha.launchId
    intro _ i key _ t ht hti
    have ht' : t ∈ (w.service.cancelLaunch w.now launchId).1.sessions := ht
    rw [cancelLaunch_sessions] at ht'
    exact ⟨t, ht', hti⟩

theorem removeSession (h : LaunchInv w) (sessionId : Nat) :
    LaunchInv { w with service := w.service.removeSession sessionId } where
  registry := h.registry.removeSession _
  calls c call hc := (h.calls c call hc).mono (fun _ hi => ⟨hi, rfl⟩)
    (fun _ _ _ hst => ⟨hst, id⟩) fun _ _ _ _ t ht hti => ⟨t, (mem_filter.mp ht).1, hti⟩

theorem setCancel (h : LaunchInv w) {c : Nat} {call call' : CancelCall}
    (hc : w.cancels c = some call) (hl : call'.launchId = call.launchId)
    (hcov : call'.covers = call.covers)
    (hr : call'.result ≠ some false → call.result ≠ some false)
    (hp : call'.result ≠ some false → ∀ t ∈ w.service.sessions, call.result = none →
      t.sessionId ∈ call.pending → call'.result = none ∧ t.sessionId ∈ call'.pending) :
    LaunchInv (w.setCancel c call') where
  registry := h.registry
  calls := by
    intro c' call'' hc'
    by_cases hcc : c' = c
    · subst hcc
      rw [setCancel_self] at hc'
      cases hc'
      have hg := h.calls c' call hc
      have haim : ∀ i key, Aims w.execs call' i key → Aims w.execs call i key :=
        fun i key ha => ⟨hcov ▸ ha.covers, ha.launchId, ha.plain, hl ▸ ha.same⟩
      constructor
      · intro i hi
        exact hg.started i (hcov ▸ hi)
      · intro hres i key ha hst
        exact hg.marker (hr hres) i key (haim i key ha) hst
      intro hres i key ha t ht hti
      obtain ⟨hnone, hmem⟩ := hg.pending (hr hres) i key (haim i key ha) t ht hti
      rw [← hti] at hmem ⊢
      exact hp hres t ht hnone hmem
    · rw [setCancel_other _ _ hcc] at hc'
      exact (h.calls c' call'' hc').mono (fun _ hi => ⟨hi, rfl⟩) (fun _ _ _ hst => ⟨hst, id⟩)
        fun _ _ _ _ t ht hti => ⟨t, ht, hti⟩

theorem step (h : LaunchInv w) (a : Action) (hlife : WithinLifetime w a) (ht : TrimmedId a) :
    LaunchInv (w.step a) := by
  cases a with
  | pass ms =>
    exact ⟨h.registry, fun c call hc => (h.calls c call hc).mono (fun _ hi => ⟨hi, rfl⟩)
      (fun _ _ _ hst => ⟨hst, id⟩) fun _ _ _ _ t ht hti => ⟨t, ht, hti⟩⟩
  | reserve i launchId =>
    simp only [World.step]
    split
    · next hidle => exact h.reserve hidle ht
    · exact h
  | check i stage =>
    simp only [World.step]
    split
    · next hst => exact h.check hst stage
    · exact h
  | register i =>
    simp only [World.step]
    split
    · next hst => exact h.register hst
    · exact h
  | finish i =>
    simp only [World.step]
    split
    · exact h.endExec i
    · exact h
  | cancel c launchId =>
    simp only [World.step]
    split
    · exact h.cancel hlife
    · exact h
  | cancelKill c =>
    simp only [World.step]
    split
    · next launchId covers sessionId pending hc =>
      refine (h.removeSession sessionId).setCancel hc rfl rfl id fun _ t ht _ hm => ⟨rfl, ?_⟩
      have hne : t.sessionId ≠ sessionId := by simpa using (mem_filter.mp ht).2
      exact (mem_cons.mp hm).resolve_left hne
    · exact h
  | cancelReturn c =>
    simp only [World.step]
    split
    · next launchId covers hc =>
      exact h.setCancel hc rfl rfl (fun _ => by simp) nofun
    · exact h
  | cancelAbort c =>
    simp only [World.step]
    split
    · next launchId covers pending hc =>
      exact h.setCancel hc rfl rfl (fun h => absurd rfl h) fun h => absurd rfl h
    · exact h
  | sessionGone sessionId => exact h.removeSession sessionId

theorem cancelHonoured (h : LaunchInv w) : CancelHonoured w := by
  intro c call hc hr i launchId hcov hl hne hsame t ht hti
  have hp := (h.registry.fits i).plain hl hne
  have ha : Aims w.execs call i launchId := ⟨hcov, hl, hp, hsame.symm.trans hp.1⟩
  have hnone := ((h.calls c call hc).pending (by simp [hr]) i launchId ha t ht hti).1
  rw [hr] at hnone
  cases hnone

theorem session_plain (h : LaunchInv w) {t : TerminalSession} (ht : t ∈ w.service.sessions)
    {launchId : String} (hl : t.launchId = some launchId) (hb : trim launchId ≠ "") :
    Plain launchId :=
  (h.registry.fits t.sessionId).plain ((h.registry.owner t ht).1.trans hl) hb

theorem exclusive (h : LaunchInv w) : Exclusive w := by
  refine ⟨h.registry.distinct, fun key hne i j hi hj => ?_⟩
  rcases hi with hi | ⟨t, ht, rfl, l, hl, rfl⟩
  · rcases hj with hj | ⟨u, hu, rfl, m, hm, rfl⟩
    · exact h.registry.exclusive i j key hi hj
    · rw [(h.session_plain hu hm hne).1] at hi
      exact (h.registry.reserved u hu i m hm hi).symm
  have hp := h.session_plain ht hl hne
  rw [hp.1] at hne hj
  rcases hj with hj | ⟨u, hu, rfl, m, hm, hk⟩
  · exact h.registry.reserved t ht j l hl hj
  · rw [(h.session_plain hu hm (hk ▸ hne)).1] at hk
    subst hk
    exact h.registry.single t ht u hu m hp hl hm

theorem init : LaunchInv World.init where
  registry := RegistryInv.init
  calls _ _ h := absurd h (by simp [World.init])

end LaunchInv

/-- a launch is cancelled while it is reserved and registers its session afterwards -/
def lostRun (launchId : String) : List Action :=
  [.reserve 0 (some launchId), .cancel 0 launchId, .cancelReturn 0, .register 0]

theorem lostRun_state (hb : trim launchId ≠ "") (hne : trim launchId ≠ launchId) :
    (run World.step World.init (lostRun launchId)).service.sessions = [⟨0, some launchId⟩] ∧
      ((run World.step World.init (lostRun launchId)).execs 0).launchId = some launchId ∧
      ∃ covers, covers 0 = true ∧
        (run World.step World.init (lostRun launchId)).cancels 0
          = some ⟨launchId, covers, [], some true⟩ := by
  have hn : nonBlank (some launchId) = some launchId := nonBlank_eq_some.mpr ⟨rfl, hb⟩
  simp [lostRun, run, World.step, World.reserve, reserveLaunch, hn, World.setExec, World.cancel,
    cancelLaunch, hb, World.setCancel, World.register, registerSession,
    update_of_ne (Ne.symm hne), World.init, Option.filter]

theorem lostRun_lost (hb : trim launchId ≠ "") (hne : trim launchId ≠ launchId) :
    StepsOk World.step WithinLifetime World.init (lostRun launchId) ∧
      ¬ CancelHonoured (run World.step World.init (lostRun launchId)) := by
  constructor
  · refine ⟨trivial, fun i _ createdAt _ _ hm => ?_, trivial, trivial, trivial⟩
    -- no marker has been left before
    have hnone : (World.init.step (.reserve 0 (some launchId))).service.cancelledLaunches
        = fun _ => none := by
      simp [World.step, World.reserve, reserveLaunch, World.init, World.setExec,
        nonBlank_eq_some.mpr ⟨rfl, hb⟩]
    rw [hnone] at hm
    cases hm
  · intro h
    obtain ⟨hs, hl, covers, hcov, hc⟩ := lostRun_state hb hne
    exact h 0 _ hc rfl 0 launchId hcov hl hb rfl ⟨0, some launchId⟩ (by simp [hs]) rfl

/-- **No cancellation is lost**, and one launch at a time keeps an id busy, in every run whose
launch ids have no surrounding whitespace. -/
theorem cancellation_honoured (as : List Action)
    (hlife : StepsOk World.step WithinLifetime World.init as)
    (hids : StepsOk World.step (fun _ => TrimmedId) World.init as) :
    Along World.step (fun w => CancelHonoured w ∧ Exclusive w) World.init as := by
  have hinv : Along World.step LaunchInv World.init as :=
    along_of_inv (fun w a hw ha => hw.step a ha.1 ha.2) LaunchInv.init (hlife.and hids)
  exact hinv.mono fun w hw => ⟨hw.cancelHonoured, hw.exclusive⟩

theorem cancellation_honoured_consumed :
    Along World.step (fun w => CancelHonoured w ∧ Exclusive w) World.init
      [.reserve 0 (some "run-1"), .pass 5, .cancel 0 "run-1", .cancelReturn 0,
        .check 0 "launch.spawn"] := by
  refine cancellation_honoured _ ⟨trivial, trivial, ?_, trivial, trivial, trivial⟩
    ⟨?_, trivial, trivial, trivial, trivial, trivial⟩
  · intro i _ createdAt _ _ hm
    exact absurd hm (by simp [World.step, World.reserve, reserveLaunch, World.init, World.setExec,
      nonBlank_eq_some.mpr ⟨rfl, (by decide : trim "run-1" ≠ "")⟩])
  · intro id hl _
    cases hl
    decide

theorem spaced_cancellation_lost :
    StepsOk World.step WithinLifetime World.init (lostRun " run-1") ∧
      ¬ Along World.step (fun w => CancelHonoured w ∧ Exclusive w) World.init
        (lostRun " run-1") := by
  obtain ⟨hlife, hlost⟩ := lostRun_lost (by decide : trim " run-1" ≠ "") (by decide)
  exact ⟨hlife, fun h => hlost h.last.1⟩

end LaunchCancellation

end CcPanes

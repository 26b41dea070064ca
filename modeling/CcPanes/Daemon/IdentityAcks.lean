import CcPanes.Daemon.IdentityEvents
import CcPanes.Foundation.Run

/-!
# Acknowledged identity events

The desktop's control link binds the resume ids that the daemon detects and acknowledges them
(`terminal_daemon_control_link.rs`).  A key counts as applied when its bind is spawned, and a key
has no source; so an acknowledgement does not say that the retained event was bound.
-/

namespace CcPanes
open List Option

structure ResumeIdDetectedPayload where
  sessionId : String
  resumeSessionId : String
  source : String
  cliTool : Option String
  runtimeKind : Option String
  launchId : Option String
  projectPath : Option String
  workspacePath : Option String
  wslDistro : Option String

/-- a field with a default: `none` if it has another type -/
def Json.optionalStr (payload : Json) (key : String) : Option (Option String) :=
  match payload.get key with
  | none | some .null => some none
  | some (.string s) => some (some s)
  | some _ => none

def parseResumePayload (payload : Json) : Option ResumeIdDetectedPayload := do
  let sessionId ← payload.str "sessionId"
  let resumeSessionId ← payload.str "resumeSessionId"
  let source ← payload.str "source"
  let cliTool ← payload.optionalStr "cliTool"
  let runtimeKind ← payload.optionalStr "runtimeKind"
  let launchId ← payload.optionalStr "launchId"
  let projectPath ← payload.optionalStr "projectPath"
  let workspacePath ← payload.optionalStr "workspacePath"
  let wslDistro ← payload.optionalStr "wslDistro"
  some { sessionId, resumeSessionId, source, cliTool, runtimeKind, launchId, projectPath,
         workspacePath, wslDistro }

/-- a connection of the control link -/
structure ControlLink where
  subscribed : Bool := false
  /-- messages on their way to the desktop -/
  inbox : List Json := []
  /-- the answer to `list_identity_events` -/
  listed : Option (List Json) := none
  replayed : Bool := false

/-- `bound` and `dropped` are history: the binds that have completed, and the events that an
acknowledgement has removed -/
structure IdentityWorld where
  store : IdentityEventStore := {}
  link : Option ControlLink := none
  appliedIdentity : List (String × String) := []
  /-- the payloads that each spawned task still has to bind -/
  tasks : List (List Json) := []
  ackQueue : List (String × String) := []
  wire : List (List (String × String)) := []
  bound : List ResumeIdDetectedPayload := []
  dropped : List (String × Json) := []

inductive IdentityAction where
  /-- the daemon detects a resume id; `room` in the control channel -/
  | emit (payload : Json) (room : Bool)
  | connect
  /-- the daemon's handler of the connection subscribes -/
  | subscribe
  /-- the daemon answers `list_identity_events` -/
  | list (ok : Bool)
  | replay
  | receive
  /-- the task `i` goes on to its next payload -/
  | bindDone (i : Nat)
  | sendAcks (ok : Bool)
  | ackArrives (i : Nat)
  | ackLost (i : Nat)
  | disconnect
  | restart

namespace IdentityWorld

/-- the `filter` of `replay_identity_events`: the fresh events, the keys applied before, and the
set `applied` afterwards -/
def replayFilter : List Json → List (String × String) →
    List Json × List (String × String) × List (String × String)
  | [], applied => ([], [], applied)
  | payload :: events, applied =>
    match identityKey payload with
    | none =>
      let (fresh, previouslyApplied, applied) := replayFilter events applied
      (payload :: fresh, previouslyApplied, applied)
    | some key =>
      if key ∈ applied then
        let (fresh, previouslyApplied, applied) := replayFilter events applied
        (fresh, key :: previouslyApplied, applied)
      else
        let (fresh, previouslyApplied, applied) := replayFilter events (key :: applied)
        (payload :: fresh, previouslyApplied, applied)

/-- the event is retained, and published to the control subscriber -/
def emit (w : IdentityWorld) (payload : Json) (room : Bool) : IdentityWorld :=
  match payload.str "sessionId" with
  | none => w
  | some sessionId =>
    { w with
      store := w.store.retainIdentityEvent sessionId payload
      link := w.link.map fun l =>
        if l.subscribed && room then { l with inbox := l.inbox ++ [payload] } else l }

def list (w : IdentityWorld) (ok : Bool) : IdentityWorld :=
  { w with
    link := w.link.map fun l =>
      if l.replayed || l.listed.isSome then l
      else if ok then { l with listed := some w.store.identitySnapshot }
      else { l with replayed := true } }

def replayIdentityEvents (w : IdentityWorld) : IdentityWorld :=
  match w.link with
  | some { subscribed, inbox, listed := some events, replayed := false } =>
    let (fresh, previouslyApplied, applied) := replayFilter events w.appliedIdentity
    { w with
      link := some { subscribed, inbox, listed := some events, replayed := true }
      appliedIdentity := applied
      ackQueue := w.ackQueue ++ previouslyApplied
      tasks := if fresh.isEmpty then w.tasks else w.tasks ++ [fresh] }
  | _ => w

/-- the `BindResume` branch, with `apply_resume_binding` -/
def receive (w : IdentityWorld) : IdentityWorld :=
  match w.link with
  | some { subscribed, inbox := payload :: inbox, listed, replayed := true } =>
    { w with
      link := some { subscribed, inbox, listed, replayed := true }
      appliedIdentity := (identityKey payload).toList ++ w.appliedIdentity
      tasks := if (parseResumePayload payload).isSome then w.tasks ++ [[payload]] else w.tasks }
  | _ => w

/-- a bind completes and its key is queued; a payload that does not parse is passed over -/
def bindDone (w : IdentityWorld) (i : Nat) : IdentityWorld :=
  match w.tasks[i]? with
  | some (payload :: rest) =>
    match parseResumePayload payload with
    | none => { w with tasks := w.tasks.set i rest }
    | some typed =>
      { w with
        tasks := w.tasks.set i rest
        bound := w.bound ++ [typed]
        ackQueue := w.ackQueue ++ (identityKey payload).toList }
  | _ => w

/-- the queue goes out in one message; a send that fails ends the connection -/
def sendAcks (w : IdentityWorld) (ok : Bool) : IdentityWorld :=
  if w.link.isNone || w.ackQueue.isEmpty then w
  else if ok then { w with ackQueue := [], wire := w.wire ++ [w.ackQueue] }
  else { w with ackQueue := [], link := none }

/-- the events that are retained in the first store and not in the second -/
def droppedBetween (store store' : IdentityEventStore) : List (String × Json) :=
  (store.bySession.entries.filter fun e => (store'.bySession.lookup e.1).isNone).map
    fun e => (e.1, e.2)

def ackArrives (w : IdentityWorld) (i : Nat) : IdentityWorld :=
  match w.wire[i]? with
  | none => w
  | some keys =>
    { w with
      store := w.store.ackIdentityEvents keys
      wire := w.wire.eraseIdx i
      dropped := w.dropped ++ droppedBetween w.store (w.store.ackIdentityEvents keys) }

def step (w : IdentityWorld) : IdentityAction → IdentityWorld
  | .emit payload room => w.emit payload room
  | .connect => if w.link.isNone then { w with link := some {} } else w
  | .subscribe => { w with link := w.link.map fun l => { l with subscribed := true } }
  | .list ok => w.list ok
  | .replay => w.replayIdentityEvents
  | .receive => w.receive
  | .bindDone i => w.bindDone i
  | .sendAcks ok => w.sendAcks ok
  | .ackArrives i => w.ackArrives i
  | .ackLost i => { w with wire := w.wire.eraseIdx i }
  | .disconnect => { w with link := none }
  | .restart => { w with link := none, appliedIdentity := [], tasks := [], ackQueue := [] }

/-! ## what an acknowledgement is worth -/

/-- a bind of the session with the event's resume id has completed, with a source of at least the
event's priority -/
def Bound (bound : List ResumeIdDetectedPayload) (sessionId : String) (event : Json) : Prop :=
  ∃ b ∈ bound, b.sessionId = sessionId ∧ event.str "resumeSessionId" = some b.resumeSessionId ∧
    sourcePriority ((event.str "source").getD "") ≤ sourcePriority b.source

def DroppedBound (w : IdentityWorld) : Prop := ∀ e ∈ w.dropped, Bound w.bound e.1 e.2

def AckPending (w : IdentityWorld) (key : String × String) : Prop :=
  key ∈ w.ackQueue ∨ ∃ keys ∈ w.wire, key ∈ keys

def Licensed (w : IdentityWorld) (key : String × String) : Prop :=
  ∀ event, w.store.bySession.lookup key.1 = some event →
    event.str "resumeSessionId" = some key.2 → Bound w.bound key.1 event

/-- the condition: an event that comes in under a key whose acknowledgement is pending has been
bound; when a bind completes, the event retained under its key has no higher source; and a replay
acknowledges again only what has been bound -/
def AckLicensed (w : IdentityWorld) : IdentityAction → Prop
  | .emit payload _ => ∀ key, identityKey payload = some key →
      w.store.keepsIncoming key.1 payload = true → AckPending w key → Bound w.bound key.1 payload
  | .bindDone i => ∀ payload rest typed, w.tasks[i]? = some (payload :: rest) →
      parseResumePayload payload = some typed → ∀ event,
      w.store.bySession.lookup typed.sessionId = some event →
      event.str "resumeSessionId" = some typed.resumeSessionId →
      sourcePriority ((event.str "source").getD "") ≤ sourcePriority typed.source ∨
        Bound w.bound typed.sessionId event
  | .replay => ∀ l events, w.link = some l → l.listed = some events →
      ∀ key ∈ (replayFilter events w.appliedIdentity).2.1, Licensed w key
  | _ => True

def AcksLicensed (w : IdentityWorld) : Prop :=
  DroppedBound w ∧ ∀ key, AckPending w key → Licensed w key

section
variable {w : IdentityWorld} {bound bound' : List ResumeIdDetectedPayload} {sessionId : String}
  {event : Json}

theorem Bound.mono (h : Bound bound sessionId event) (hsub : bound ⊆ bound') :
    Bound bound' sessionId event := by
  obtain ⟨b, hb, h⟩ := h
  exact ⟨b, hsub hb, h⟩

theorem parse_key {payload : Json} {typed : ResumeIdDetectedPayload}
    (h : parseResumePayload payload = some typed) :
    identityKey payload = some (typed.sessionId, typed.resumeSessionId) := by
  unfold parseResumePayload at h
  simp only [bind_eq_bind, bind_eq_some_iff, some.injEq] at h
  obtain ⟨sessionId, hsession, resumeId, hresume, source, -, cliTool, -, runtimeKind, -, launchId,
    -, projectPath, -, workspacePath, -, wslDistro, -, rfl⟩ := h
  unfold identityKey
  rw [hsession, hresume]
  rfl

theorem AcksLicensed.frame {w' : IdentityWorld} (h : AcksLicensed w)
    (hpending : ∀ key, AckPending w' key → AckPending w key)
    (hstore : ∀ s d, w'.store.bySession.lookup s = some d → w.store.bySession.lookup s = some d)
    (hbound : w.bound ⊆ w'.bound) (hdropped : w'.dropped = w.dropped) : AcksLicensed w' := by
  obtain ⟨hdrop, hlicensed⟩ := h
  refine ⟨?_, ?_⟩
  · intro e he
    rw [hdropped] at he
    exact (hdrop e he).mono hbound
  · intro key hkey event hlookup hresume
    exact (hlicensed key (hpending key hkey) event (hstore _ _ hlookup) hresume).mono hbound

theorem emit_licensed (h : AcksLicensed w) {payload : Json} {room : Bool}
    (hok : AckLicensed w (.emit payload room)) : AcksLicensed (w.emit payload room) := by
  unfold emit
  cases hsession : payload.str "sessionId" with
  | none => exact h
  | some =>
    refine ⟨h.1, ?_⟩
    intro key hkey event hlookup hresume
    rcases IdentityEventStore.retained_cases hlookup with hold | ⟨hkeep, hs, rfl⟩
    · exact h.2 key hkey event hold hresume
    have hidentity : identityKey event = some key := by
      unfold identityKey
      rw [hsession, hresume, ← hs]
      rfl
    rw [← hs] at hkeep
    exact hok key hidentity hkeep hkey

theorem list_licensed (h : AcksLicensed w) (ok : Bool) : AcksLicensed (w.list ok) :=
  h.frame (fun _ hkey => hkey) (fun _ _ hd => hd) (List.Subset.refl _) rfl

theorem replay_licensed (h : AcksLicensed w) (hok : AckLicensed w .replay) :
    AcksLicensed w.replayIdentityEvents := by
  unfold replayIdentityEvents
  split
  · rename_i subscribed inbox events hlink
    refine ⟨h.1, ?_⟩
    intro key hkey
    rcases hkey with hkey | hwire
    · rcases mem_append.mp hkey with hkey | hagain
      · exact h.2 key (.inl hkey)
      · exact hok _ events hlink rfl key hagain
    · exact h.2 key (.inr hwire)
  · exact h

theorem receive_licensed (h : AcksLicensed w) : AcksLicensed w.receive := by
  unfold receive
  split
  · exact h.frame (fun _ hkey => hkey) (fun _ _ hd => hd) (List.Subset.refl _) rfl
  · exact h

theorem bindDone_licensed (h : AcksLicensed w) {i : Nat} (hok : AckLicensed w (.bindDone i)) :
    AcksLicensed (w.bindDone i) := by
  unfold bindDone
  split
  · rename_i payload rest htask
    cases hparse : parseResumePayload payload with
    | none => exact h.frame (fun _ hkey => hkey) (fun _ _ hd => hd) (List.Subset.refl _) rfl
    | some typed =>
      have hgrow : w.bound ⊆ w.bound ++ [typed] := subset_append_left _ _
      refine ⟨fun e he => (h.1 e he).mono hgrow, ?_⟩
      intro key hkey event hlookup hresume
      have hold : AckPending w key → Bound (w.bound ++ [typed]) key.1 event := fun hkey =>
        (h.2 key hkey event hlookup hresume).mono hgrow
      rcases hkey with hkey | hwire
      · rcases mem_append.mp hkey with hkey | hnew
        · exact hold (.inl hkey)
        rw [parse_key hparse] at hnew
        obtain rfl := mem_singleton.mp hnew
        rcases hok payload rest typed htask hparse event hlookup hresume with hle | hbound
        · exact ⟨typed, by simp, rfl, hresume, hle⟩
        · exact hbound.mono hgrow
      · exact hold (.inr hwire)
  · exact h

theorem sendAcks_licensed (h : AcksLicensed w) (ok : Bool) : AcksLicensed (w.sendAcks ok) := by
  unfold sendAcks
  by_cases hidle : (w.link.isNone || w.ackQueue.isEmpty) = true
  · rw [if_pos hidle]
    exact h
  rw [if_neg hidle]
  have hqueue : ∀ key, ¬key ∈ ([] : List (String × String)) := nofun
  cases ok with
  | true =>
    refine h.frame ?_ (fun _ _ hd => hd) (List.Subset.refl _) rfl
    intro key hkey
    rcases hkey with hkey | ⟨keys, hkeys, hkey⟩
    · exact absurd hkey (hqueue key)
    rcases mem_append.mp hkeys with hkeys | hnew
    · exact .inr ⟨keys, hkeys, hkey⟩
    · obtain rfl := mem_singleton.mp hnew
      exact .inl hkey
  | false =>
    refine h.frame ?_ (fun _ _ hd => hd) (List.Subset.refl _) rfl
    intro key hkey
    rcases hkey with hkey | hwire
    · exact absurd hkey (hqueue key)
    · exact .inr hwire

theorem ackArrives_licensed (h : AcksLicensed w) (i : Nat) : AcksLicensed (w.ackArrives i) := by
  unfold ackArrives
  cases hwire : w.wire[i]? with
  | none => exact h
  | some keys =>
    refine ⟨?_, ?_⟩
    · intro e he
      rcases mem_append.mp he with he | hnew
      · exact h.1 e he
      obtain ⟨⟨s, event⟩, hmem, rfl⟩ := mem_map.mp hnew
      obtain ⟨hentry, hgone⟩ := mem_filter.mp hmem
      have hlookup : w.store.bySession.lookup s = some event :=
        FiniteMap.lookup_eq_some_iff.mpr hentry
      obtain ⟨r, hr, hresume⟩ := IdentityEventStore.ack_dropped hlookup
        (isNone_iff_eq_none.mp hgone)
      exact h.2 (s, r) (.inr ⟨keys, mem_of_getElem? hwire, hr⟩) event hlookup hresume
    · intro key hkey event hlookup hresume
      refine h.2 key ?_ event (IdentityEventStore.ack_lookup hlookup) hresume
      rcases hkey with hkey | ⟨keys', hkeys', hkey⟩
      · exact .inl hkey
      · exact .inr ⟨keys', mem_of_mem_eraseIdx hkeys', hkey⟩

theorem step_licensed {a : IdentityAction} (h : AcksLicensed w) (hok : AckLicensed w a) :
    AcksLicensed (w.step a) := by
  cases a with
  | emit => exact emit_licensed h hok
  | connect =>
    unfold step
    by_cases hlink : w.link.isNone = true
    · simp only [hlink, if_true]
      exact h.frame (fun _ hkey => hkey) (fun _ _ hd => hd) (List.Subset.refl _) rfl
    · simp only [hlink]
      exact h
  | subscribe | disconnect =>
    exact h.frame (fun _ hkey => hkey) (fun _ _ hd => hd) (List.Subset.refl _) rfl
  | list ok => exact list_licensed h ok
  | replay => exact replay_licensed h hok
  | receive => exact receive_licensed h
  | bindDone => exact bindDone_licensed h hok
  | sendAcks ok => exact sendAcks_licensed h ok
  | ackArrives i => exact ackArrives_licensed h i
  | ackLost =>
    refine h.frame ?_ (fun _ _ hd => hd) (List.Subset.refl _) rfl
    intro key hkey
    rcases hkey with hkey | ⟨keys, hkeys, hkey⟩
    · exact .inl hkey
    · exact .inr ⟨keys, mem_of_mem_eraseIdx hkeys, hkey⟩
  | restart =>
    refine h.frame ?_ (fun _ _ hd => hd) (List.Subset.refl _) rfl
    intro key hkey
    rcases hkey with hkey | hwire
    · cases hkey
    · exact .inr hwire

end

theorem fresh_licensed : AcksLicensed {} := by
  refine ⟨nofun, ?_⟩
  intro key hkey
  rcases hkey with hkey | ⟨keys, hkeys, -⟩
  · cases hkey
  · cases hkeys

theorem acks_bound (as : List IdentityAction) (hok : Run.StepsOk step AckLicensed {} as) :
    Run.Along step DroppedBound {} as :=
  (Run.along_of_inv (fun _ _ => step_licensed) fresh_licensed hok).mono fun _ h => h.1

def issuedEvent : Json :=
  .object [("sessionId", .string "s"), ("resumeSessionId", .string "r"), ("source", .string "issued")]

def ackedRun : List IdentityAction :=
  [.connect, .subscribe, .list true, .replay, .emit issuedEvent true, .receive, .bindDone 0,
    .sendAcks true, .ackArrives 0]

theorem ackedRun_bound : Run.StepsOk step AckLicensed {} ackedRun ∧
    Run.Along step DroppedBound {} ackedRun ∧
    (Run.run step {} ackedRun).dropped = [("s", issuedEvent)] := by
  have hok : Run.StepsOk step AckLicensed {} ackedRun := by
    refine ⟨trivial, trivial, trivial, ?_, ?_, trivial, ?_, trivial, trivial, trivial⟩
    · intro l events hlink hlisted key hkey
      cases hlink
      cases hlisted
      cases hkey
    · intro key hidentity hkeep hpending
      rcases hpending with hkey | ⟨keys, hkeys, -⟩
      · cases hkey
      · cases hkeys
    intro payload rest typed htask hparse event hlookup hresume
    have hhead := cons.inj (some.inj htask)
    obtain ⟨rfl, -⟩ := hhead
    cases hparse
    cases hlookup
    exact .inl (Nat.le_refl _)
  exact ⟨hok, acks_bound ackedRun hok, rfl⟩

/-- the link breaks while the bind is running: the replay acknowledges the event again -/
def brokenRun : List IdentityAction :=
  [.connect, .subscribe, .list true, .replay, .emit issuedEvent true, .receive, .disconnect,
    .connect, .list true, .replay, .sendAcks true, .ackArrives 0]

theorem brokenRun_unbound : (Run.run step {} brokenRun).dropped = [("s", issuedEvent)] ∧
    (Run.run step {} brokenRun).bound = [] ∧ ¬Run.Along step DroppedBound {} brokenRun := by
  have hdropped : (Run.run step {} brokenRun).dropped = [("s", issuedEvent)] := rfl
  have hbound : (Run.run step {} brokenRun).bound = [] := rfl
  refine ⟨hdropped, hbound, ?_⟩
  intro h
  obtain ⟨b, hb, -⟩ := h.last ("s", issuedEvent) (by rw [hdropped]; exact mem_singleton_self _)
  cases hb

end IdentityWorld

end CcPanes

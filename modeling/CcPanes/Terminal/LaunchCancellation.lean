import CcPanes.TaskQueue.Models
import Mathlib.Logic.Function.Basic

/-!
# Cancelling a launch that is still being created

`create_session` reserves its launch id, looks for a cancellation at several points, and registers
its session.  `cancel_launch` leaves a marker for a launch that has no session yet and kills the
session of one that has; both sides take the locks in one order, so each of the steps below is
atomic.  `create_session` looks the marker up under the id as it was given, `reserve_launch` and
`cancel_launch` work with the trimmed id.
-/

namespace CcPanes

namespace LaunchCancellation

/-! ## the operations -/

structure LaunchError where
  code : String
  message : String
  params : List (String × String)

/-- `sessionId` is generated by the `create_session` call, so it stands for the call -/
structure TerminalSession where
  sessionId : Nat
  launchId : Option String

structure TerminalService where
  activeLaunches : List String
  /-- the markers with the time (in milliseconds) at which they were left -/
  cancelledLaunches : String → Option Nat
  sessions : List TerminalSession

def markerLifetimeMs : Nat := 300000

def launchCancelledError (launchId : Option String) (stage : String) : LaunchError where
  code := "LAUNCH_CANCELLED"
  message := "Terminal launch was cancelled during " ++ stage
  params := ("stage", stage) :: (launchId.map fun id => ("launchId", id)).toList

def launchDuplicateError (message launchId : String) : LaunchError where
  code := "LAUNCH_DUPLICATE"
  message := message
  params := [("launchId", launchId)]

/-- `launch_id.filter(|value| !value.trim().is_empty())` -/
def nonBlank (launchId : Option String) : Option String := launchId.filter fun id => trim id ≠ ""

namespace TerminalService

def removeMarker (s : TerminalService) (launchId : String) : TerminalService :=
  { s with cancelledLaunches := Function.update s.cancelledLaunches launchId none }

def ensureLaunchActive (s : TerminalService) (launchId : Option String) (stage : String) :
    TerminalService × Except LaunchError Unit :=
  match nonBlank launchId with
  | none => (s, .ok ())
  | some launchId =>
    match s.cancelledLaunches launchId with
    | none => (s, .ok ())
    | some _ =>
      (s.removeMarker launchId, .error (launchCancelledError (some launchId) stage))

/-- the result carries the key of the reservation, if one was taken -/
def reserveLaunch (s : TerminalService) (launchId : Option String) :
    TerminalService × Except LaunchError (Option String) :=
  match nonBlank launchId with
  | none => (s, .ok none)
  | some launchId =>
    let launchId := trim launchId
    if launchId ∈ s.activeLaunches then
      (s, .error (launchDuplicateError
        ("A terminal launch with id '" ++ launchId ++ "' is already active") launchId))
    else if s.sessions.any fun session => session.launchId = some launchId then
      (s, .error (launchDuplicateError
        ("A terminal session for launch id '" ++ launchId ++ "' already exists") launchId))
    else ({ s with activeLaunches := launchId :: s.activeLaunches }, .ok (some launchId))

/-- `LaunchReservation::drop` -/
def dropReservation (s : TerminalService) (reservation : Option String) : TerminalService :=
  match reservation with
  | none => s
  | some launchId => { s with activeLaunches := s.activeLaunches.filter (· ≠ launchId) }

/-- the registration block of `create_session` -/
def registerSession (s : TerminalService) (sessionId : Nat) (launchId : Option String) :
    TerminalService × Except LaunchError Unit :=
  match launchId.filter fun id => (s.cancelledLaunches id).isSome with
  | some id => (s.removeMarker id, .error (launchCancelledError launchId "launch.session.register"))
  | none => ({ s with sessions := ⟨sessionId, launchId⟩ :: s.sessions }, .ok ())

/-- the critical section of `cancel_launch`; the result is the sessions it goes on to kill -/
def cancelLaunch (s : TerminalService) (now : Nat) (launchId : String) :
    TerminalService × List Nat :=
  let launchId := trim launchId
  if launchId = "" then (s, [])
  else
    let retained := fun id =>
      (s.cancelledLaunches id).filter fun createdAt => now ≤ createdAt + markerLifetimeMs
    let marked := Function.update retained launchId (some now)
    let sessionIds := (s.sessions.filter fun session => session.launchId = some launchId).map
      TerminalSession.sessionId
    ({ s with
        cancelledLaunches :=
          if sessionIds.isEmpty then marked else Function.update marked launchId none },
      sessionIds)

/-- the part of `kill_with_reason` that concerns the registry -/
def removeSession (s : TerminalService) (sessionId : Nat) : TerminalService :=
  { s with sessions := s.sessions.filter fun session => session.sessionId ≠ sessionId }

end TerminalService

/-! ## calls and their interleaving -/

inductive Stage
  | idle
  | reserved
  | registered
  | done
  deriving DecidableEq

/-- a `create_session` call -/
structure Exec where
  stage : Stage
  launchId : Option String

/-- the key under which the call holds its reservation -/
def Exec.reservation (x : Exec) : Option String :=
  match x.stage with
  | .reserved => (nonBlank x.launchId).map trim
  | .registered => (nonBlank x.launchId).map trim
  | _ => none

/-- a `cancel_launch` call: the `create_session` calls that were under way when it started, the
sessions it has yet to kill, and what it returned -/
structure CancelCall where
  launchId : String
  covers : Nat → Bool
  pending : List Nat
  result : Option Bool

structure World where
  now : Nat
  service : TerminalService
  execs : Nat → Exec
  cancels : Nat → Option CancelCall

def World.init : World where
  now := 0
  service := ⟨[], fun _ => none, []⟩
  execs _ := ⟨.idle, none⟩
  cancels _ := none

inductive Action
  | pass (ms : Nat)
  | reserve (i : Nat) (launchId : Option String)
  | check (i : Nat) (stage : String)
  | register (i : Nat)
  /-- the call returns, before its session is registered (an error of another kind) or after -/
  | finish (i : Nat)
  | cancel (c : Nat) (launchId : String)
  | cancelKill (c : Nat)
  | cancelReturn (c : Nat)
  /-- a kill failed with an error other than `NotFound` -/
  | cancelAbort (c : Nat)
  /-- the session ends for another reason -/
  | sessionGone (sessionId : Nat)

namespace World

def setExec (w : World) (i : Nat) (x : Exec) : World :=
  { w with execs := Function.update w.execs i x }

def setCancel (w : World) (c : Nat) (call : CancelCall) : World :=
  { w with cancels := Function.update w.cancels c (some call) }

/-- the call returns: its reservation is dropped -/
def endExec (w : World) (i : Nat) : World :=
  { w with
    service := w.service.dropReservation (w.execs i).reservation
    execs := Function.update w.execs i { w.execs i with stage := .done } }

def reserve (w : World) (i : Nat) (launchId : Option String) : World :=
  match w.service.reserveLaunch launchId with
  | (s, .ok _) => { w with service := s }.setExec i ⟨.reserved, launchId⟩
  | (s, .error _) => { w with service := s }.setExec i ⟨.done, launchId⟩

def check (w : World) (i : Nat) (stage : String) : World :=
  match w.service.ensureLaunchActive (w.execs i).launchId stage with
  | (s, .ok ()) => { w with service := s }
  | (s, .error _) => { w with service := s }.endExec i

def register (w : World) (i : Nat) : World :=
  match w.service.registerSession i (w.execs i).launchId with
  | (s, .ok ()) => { w with service := s }.setExec i { w.execs i with stage := .registered }
  | (s, .error _) => { w with service := s }.endExec i

def cancel (w : World) (c : Nat) (launchId : String) : World :=
  { w with service := (w.service.cancelLaunch w.now launchId).1 }.setCancel c
    { launchId := launchId
      covers i := (w.execs i).stage != Stage.idle
      pending := (w.service.cancelLaunch w.now launchId).2
      result := none }

def step (w : World) : Action → World
  | .pass ms => { w with now := w.now + ms }
  | .reserve i launchId => if (w.execs i).stage = .idle then w.reserve i launchId else w
  | .check i stage => if (w.execs i).stage = .reserved then w.check i stage else w
  | .register i => if (w.execs i).stage = .reserved then w.register i else w
  | .finish i =>
    if (w.execs i).stage = .reserved ∨ (w.execs i).stage = .registered then w.endExec i else w
  | .cancel c launchId => if w.cancels c = none then w.cancel c launchId else w
  | .cancelKill c =>
    match w.cancels c with
    | some ⟨launchId, covers, sessionId :: pending, none⟩ =>
      { w with service := w.service.removeSession sessionId }.setCancel c
        ⟨launchId, covers, pending, none⟩
    | _ => w
  | .cancelReturn c =>
    match w.cancels c with
    | some ⟨launchId, covers, [], none⟩ => w.setCancel c ⟨launchId, covers, [], some true⟩
    | _ => w
  | .cancelAbort c =>
    match w.cancels c with
    | some ⟨launchId, covers, pending, none⟩ =>
      w.setCancel c ⟨launchId, covers, pending, some false⟩
    | _ => w
  | .sessionGone sessionId => { w with service := w.service.removeSession sessionId }

end World

end LaunchCancellation

end CcPanes

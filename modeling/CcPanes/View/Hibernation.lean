import CcPanes.View.DataRenderer
import CcPanes.View.HiddenFlush

/-!
# Hibernation of a background terminal

A terminal that has been hidden for long is serialized and disposed; its output is collected in a
container until the view is shown again and the container is replayed into a new terminal.

What `serialize()` returns is a function of the text the terminal has parsed, the text it was built
with included; what `writeTerminalData` filters belongs to the terminal.  The flush of a view that
is shown again and the resync of a live view are not among the steps.  History, which nothing
reads: `origin`, `received`, `rendered` and `replays`.
-/

namespace CcPanes.Hibernation

open HiddenFlush (hiddenOutputTruncatedNotice)

/-! ## the container -/

structure HibernatedTerminalState where
  chunks : List JsString
  totalChars : Nat
  overflowed : Bool
  deriving DecidableEq

def hibernatedMaxChars : Nat := 4 * 1024 * 1024

namespace HibernatedTerminalState

/-- `createHibernatedTerminalState` -/
def create (maxChars : Nat) (base : JsString) : HibernatedTerminalState :=
  if maxChars < base.length then ⟨[], 0, true⟩ else ⟨[base], base.length, false⟩

def invalidate (h : HibernatedTerminalState) : HibernatedTerminalState :=
  if h.overflowed then h else ⟨[], 0, true⟩

def appendRendered (h : HibernatedTerminalState) (maxChars : Nat) (chunk : JsString) :
    HibernatedTerminalState :=
  if h.overflowed ∨ chunk = [] then h
  else if maxChars < h.totalChars + chunk.length then h.invalidate
  else { h with chunks := h.chunks ++ [chunk], totalChars := h.totalChars + chunk.length }

def markDesynced (h : HibernatedTerminalState) : HibernatedTerminalState := h.invalidate

def wakeData (h : HibernatedTerminalState) : Option JsString :=
  if h.overflowed then none else some h.chunks.flatten

end HibernatedTerminalState

/-! ## the view -/

/-- what a view is built over -/
structure ViewSetup where
  /-- `SerializeAddon.serialize` of a terminal that has parsed a text -/
  serialize : JsString → JsString
  context : TerminalDataRenderContext
  maxChars : Nat

/-- the effect that is mounted: a terminal with its subscription, one that is being opened, one
whose replay is done, the collecting one, or none -/
inductive Effect where
  | view
  | opening
  | replayed
  | collecting
  | cleaned
  deriving DecidableEq

/-- a container that was replayed, with what the view had received -/
structure Replay where
  data : Option JsString
  origin : JsString
  rendered : List JsString

structure HibernationWorld where
  /-- kept by the service while nobody is subscribed -/
  pendingChunks : List JsString
  effect : Effect
  visible : Bool
  renderer : TerminalDataRenderer
  /-- the text that the terminal has parsed -/
  parsed : JsString
  /-- writes that it has not parsed -/
  queue : List JsString
  backlog : HiddenWriteBuffer UInt16
  hibernatedState : Option HibernatedTerminalState
  wakeState : Option HibernatedTerminalState
  /-- what the terminal was built with -/
  origin : JsString
  received : List JsString
  /-- the chunks received since then, as the renderer left them -/
  rendered : List JsString
  replays : List Replay

namespace HibernationWorld

def init : HibernationWorld where
  pendingChunks := []
  effect := .opening
  visible := true
  renderer := createTerminalDataRenderer
  parsed := []
  queue := []
  backlog := .empty
  hibernatedState := none
  wakeState := none
  origin := []
  received := []
  rendered := []
  replays := []

section
variable (v : ViewSetup)

def renderTerminalData (w : HibernationWorld) (data : JsString) : HibernationWorld × JsString :=
  let (renderer, renderedData) := render w.renderer data v.context
  ({ w with
    renderer := renderer
    received := w.received ++ [data]
    rendered := w.rendered ++ [renderedData] }, renderedData)

/-- the handler of a terminal: written at once, or kept while the view is hidden -/
def outputHandler (quota : Nat) (w : HibernationWorld) (data : JsString) : HibernationWorld :=
  let (w, renderedData) := w.renderTerminalData v data
  if renderedData = [] then w
  else
    match w.backlog.push w.visible quota hiddenOutputTruncatedNotice renderedData with
    | (backlog, none) => { w with backlog := backlog }
    | (backlog, some writable) => { w with backlog := backlog, queue := w.queue ++ [writable] }

theorem outputHandler_rendered {quota : Nat} {w : HibernationWorld} {data : JsString}
    (h : (w.renderTerminalData v data).2 ≠ []) : w.outputHandler v quota data =
      match w.backlog.push w.visible quota hiddenOutputTruncatedNotice
        (w.renderTerminalData v data).2 with
      | (backlog, none) => { (w.renderTerminalData v data).1 with backlog := backlog }
      | (backlog, some writable) => { (w.renderTerminalData v data).1 with
          backlog := backlog, queue := w.queue ++ [writable] } := if_neg h

/-- the container that the collecting effect was started with, wherever it is now -/
def modifyCollected (w : HibernationWorld)
    (f : HibernatedTerminalState → HibernatedTerminalState) : HibernationWorld :=
  match w.hibernatedState with
  | some h => { w with hibernatedState := some (f h) }
  | none => { w with wakeState := w.wakeState.map f }

/-- the handler of `collectHibernatedOutput` -/
def collect (w : HibernationWorld) (data : JsString) : HibernationWorld :=
  let (w, renderedData) := w.renderTerminalData v data
  if renderedData = [] then w
  else w.modifyCollected (·.appendRendered v.maxChars renderedData)

def chunk (w : HibernationWorld) (data : JsString) (quota : Nat) : HibernationWorld :=
  match w.effect with
  | .view => w.outputHandler v quota data
  | .collecting => w.collect v data
  | _ => { w with pendingChunks := w.pendingChunks ++ [data] }

def parse (w : HibernationWorld) : HibernationWorld :=
  match w.queue with
  | [] => w
  | write :: queue => { w with parsed := w.parsed ++ write, queue := queue }

def hibernateNow (w : HibernationWorld) : HibernationWorld :=
  if w.effect = .view ∧ w.hibernatedState = none then
    let base := v.serialize w.parsed
    let backlogOverflowed := w.backlog.didOverflow
    let (rest, backlog) := w.backlog.takeAll hiddenOutputTruncatedNotice
    let base := if backlogOverflowed then base else base ++ backlog.getD []
    let h := HibernatedTerminalState.create v.maxChars base
    { w with
      backlog := rest
      hibernatedState := some (if backlogOverflowed then h.markDesynced else h) }
  else w

def wakeFromHibernation (w : HibernationWorld) : HibernationWorld :=
  match w.hibernatedState with
  | none => w
  | some h => { w with hibernatedState := none, wakeState := some h }

/-- the mounted effect ends; that of a terminal drops the queue and the backlog -/
def cleanup (w : HibernationWorld) : HibernationWorld :=
  match w.effect with
  | .view | .opening | .replayed =>
    { w with effect := .cleaned, parsed := [], queue := [], backlog := w.backlog.reset }
  | .collecting => { w with effect := .cleaned }
  | .cleaned => w

/-- the next effect: it collects if there is a hibernated container, and opens a terminal if not -/
def start (w : HibernationWorld) : HibernationWorld :=
  if w.effect = .cleaned then
    match w.hibernatedState with
    | some _ =>
      w.pendingChunks.foldl (collect v) { w with effect := .collecting, pendingChunks := [] }
    | none => { w with effect := .opening }
  else w

/-- the opening effect takes the container; without one, or if it is void, `snapshot` is replayed -/
def replayWake (w : HibernationWorld) (snapshot : JsString) : HibernationWorld :=
  if w.effect = .opening then
    let wakeData := w.wakeState.bind (·.wakeData)
    { w with
      effect := .replayed
      wakeState := none
      parsed := wakeData.getD snapshot
      origin := wakeData.getD snapshot
      rendered := []
      replays := w.replays ++ [⟨wakeData, w.origin, w.rendered⟩] }
  else w

def bind (w : HibernationWorld) (quota : Nat) : HibernationWorld :=
  if w.effect = .replayed then
    w.pendingChunks.foldl (outputHandler v quota) { w with effect := .view, pendingChunks := [] }
  else w

/-- the daemon skipped output while the container is collecting -/
def desync (w : HibernationWorld) : HibernationWorld :=
  if w.effect = .collecting then w.modifyCollected (·.markDesynced) else w

end

end HibernationWorld

inductive HibernationAction where
  | chunk (data : JsString) (quota : Nat)
  | parse
  | setVisible (visible : Bool)
  | hibernateNow
  | wakeFromHibernation
  | cleanup
  | start
  | replayWake (snapshot : JsString)
  | bind (quota : Nat)
  | desync

def step (v : ViewSetup) (w : HibernationWorld) : HibernationAction → HibernationWorld
  | .chunk data quota => w.chunk v data quota
  | .parse => w.parse
  | .setVisible visible => { w with visible := visible }
  | .hibernateNow => w.hibernateNow v
  | .wakeFromHibernation => w.wakeFromHibernation
  | .cleanup => w.cleanup
  | .start => w.start v
  | .replayWake snapshot => w.replayWake snapshot
  | .bind quota => w.bind v quota
  | .desync => w.desync

end CcPanes.Hibernation

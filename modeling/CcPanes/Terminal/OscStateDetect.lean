import CcPanes.Foundation.Transducer
import Mathlib.Data.List.DropRight

/-!
# The in-band detector of session states

`OscStateDetector` of `osc_state_detect.rs`: a parser of the bytes a PTY puts out.  It reports the
marks `OSC 777;notify;CCPanes;<agent>;<event>` of the hooks and the command boundaries `OSC 133` of
the shell integration.
-/

namespace CcPanes.OscDetect

abbrev Bytes := List UInt8

def esc : UInt8 := 0x1b
def bel : UInt8 := 0x07
def oscIntro : UInt8 := 0x5d
def stFinal : UInt8 := 0x5c
def semicolon : UInt8 := 0x3b

def oscMax : Nat := 2048

def bytesOf (s : String) : Bytes := s.toUTF8.data.toList

/-- `std::str::from_utf8` -/
def fromUtf8 (bytes : Bytes) : Option String := String.fromUTF8? ⟨bytes.toArray⟩

def defaultAgents : List String := ["claude", "codex", "gemini", "opencode"]

def ccpanesMarker : Bytes := bytesOf "notify;CCPanes;"

inductive State where
  | ground
  | esc
  | osc
  | oscEsc
  deriving DecidableEq

inductive OscSignal where
  | started (agent : String)
  | event (name : String)
  | commandExited (exitCode : Option Int)

structure OscStateDetector where
  agents : List String
  state : State
  osc : Bytes
  armed : Bool

def new : OscStateDetector := ⟨defaultAgents, .ground, [], false⟩

/-! ## text -/

/-- `char::is_whitespace` -/
def isWhitespace (c : Char) : Bool :=
  (0x09 ≤ c.toNat && c.toNat ≤ 0x0d) || (0x2000 ≤ c.toNat && c.toNat ≤ 0x200a) ||
    [0x20, 0x85, 0xa0, 0x1680, 0x2028, 0x2029, 0x202f, 0x205f, 0x3000].contains c.toNat

def splitWhitespace (text : List Char) : List (List Char) :=
  (text.splitOnP isWhitespace).filter fun token => token ≠ []

def trim (text : List Char) : List Char :=
  (text.dropWhile isWhitespace).rdropWhile isWhitespace

/-- `strip_prefix` -/
def after [BEq α] (start text : List α) : Option (List α) :=
  if start.isPrefixOf text then some (text.drop start.length) else none

/-- `strip_suffix` -/
def before [BEq α] (tail text : List α) : Option (List α) :=
  if tail.isSuffixOf text then some (text.take (text.length - tail.length)) else none

def isDigit (c : Char) : Bool := '0' ≤ c && c ≤ '9'

/-- `str::parse::<i32>` -/
def parseI32 (text : List Char) : Option Int :=
  let signed : Bool × List Char :=
    match text with
    | '+' :: digits => (false, digits)
    | '-' :: digits => (true, digits)
    | digits => (false, digits)
  if signed.2 ≠ [] ∧ signed.2.all isDigit then
    let magnitude : Nat := signed.2.foldl (fun n c => n * 10 + (c.toNat - 0x30)) 0
    let value : Int := if signed.1 then -magnitude else magnitude
    if -2147483648 ≤ value ∧ value ≤ 2147483647 then some value else none
  else none

/-! ## the end of a sequence -/

def tokenAgent (agents : List String) (token : List Char) : Option String :=
  if token.head? = some '-' then none
  else
    let base := (token.splitOnP fun c => c = '/' || c = '\\').getLast?.getD token
    let base := ((before ".exe".toList base).or (before ".cmd".toList base)).getD base
    agents.find? fun a =>
      (after a.toList base).any fun rest => rest.isEmpty || rest.head? = some '-'

def matchAgent (agents : List String) (cmd : Bytes) : Option String :=
  (fromUtf8 cmd).bind fun cmd => (splitWhitespace cmd.toList).findSome? (tokenAgent agents)

def handleOsc777 (d : OscStateDetector) (pt : Bytes) : OscStateDetector × List OscSignal :=
  match after ccpanesMarker pt with
  | none => (d, [])
  | some tail =>
    match tail.findIdx? (· = semicolon) with
    | none => (d, [])
    | some i =>
      match fromUtf8 (tail.take i) with
      | none => (d, [])
      | some agent =>
        if agent ∉ d.agents then (d, [])
        else
          match fromUtf8 (tail.drop (i + 1)) with
          | none => (d, [])
          | some event =>
            if (tail.drop (i + 1)).length = 0 ∨ 64 < (tail.drop (i + 1)).length then (d, [])
            else ({ d with armed := true }, [.event event])

def handleOsc133 (d : OscStateDetector) (pt : Bytes) : OscStateDetector × List OscSignal :=
  if pt.head? = some 0x43 then
    if d.armed then (d, [])
    else
      match matchAgent d.agents ((after (bytesOf "C;") pt).getD []) with
      | some agent => ({ d with armed := true }, [.started agent])
      | none => (d, [])
  else if pt.head? = some 0x44 ∧ d.armed then
    let exitCode := (after (bytesOf "D;") pt).bind fun s =>
      (fromUtf8 s).bind fun s => parseI32 (trim s.toList)
    ({ d with armed := false }, [.commandExited exitCode])
  else (d, [])

/-- `finish_osc`, which takes the body away -/
def finishOsc (d : OscStateDetector) : OscStateDetector × List OscSignal :=
  let body := d.osc
  let d := { d with osc := [] }
  let parts : Bytes × Bytes :=
    match body.findIdx? (· = semicolon) with
    | some i => (body.take i, body.drop (i + 1))
    | none => (body, [])
  if parts.1 = bytesOf "133" then handleOsc133 d parts.2
  else if parts.1 = bytesOf "777" then handleOsc777 d parts.2
  else (d, [])

/-- what the automaton does with a byte outside the ground state -/
def readByte (d : OscStateDetector) (b : UInt8) : OscStateDetector × List OscSignal :=
  match d.state with
  | .ground => (d, [])
  | .esc =>
    if b = oscIntro then ({ d with state := .osc, osc := [] }, [])
    else if b = esc then (d, [])
    else ({ d with state := .ground }, [])
  | .osc =>
    if b = bel then
      let r := finishOsc d
      ({ r.1 with state := .ground }, r.2)
    else if b = esc then ({ d with state := .oscEsc }, [])
    else if d.osc.length < oscMax then ({ d with osc := d.osc ++ [b] }, [])
    else ({ d with osc := [], state := .ground }, [])
  | .oscEsc =>
    if b = stFinal then
      let r := finishOsc d
      ({ r.1 with state := .ground }, r.2)
    else if b = esc then (d, [])
    else ({ d with osc := [], state := .ground }, [])

/-- one call: in the ground state it skips to the next escape -/
def process (d : OscStateDetector) (input : Bytes) : OscStateDetector × List OscSignal :=
  match input with
  | [] => (d, [])
  | b :: rest =>
    if d.state = .ground then
      match (b :: rest).findIdx? (· = esc) with
      | some offset => process { d with state := .esc } ((b :: rest).drop (offset + 1))
      | none => (d, [])
    else
      let r := readByte d b
      let s := process r.1 rest
      (s.1, r.2 ++ s.2)
termination_by input.length
decreasing_by
  · rw [List.length_drop, List.length_cons]
    omega
  · exact Nat.lt_succ_self _

/-! ## byte by byte -/

def byteStep (d : OscStateDetector) (b : UInt8) : OscStateDetector × List OscSignal :=
  if d.state = .ground then (if b = esc then { d with state := .esc } else d, [])
  else readByte d b

def read (d : OscStateDetector) (input : Bytes) : OscStateDetector × List OscSignal :=
  Transducer.feed byteStep d input

theorem read_cons (d : OscStateDetector) (b : UInt8) (rest : Bytes) : read d (b :: rest) =
    ((read (byteStep d b).1 rest).1, (byteStep d b).2 ++ (read (byteStep d b).1 rest).2) := rfl

theorem read_append (d : OscStateDetector) (a b : Bytes) : read d (a ++ b) =
    ((read (read d a).1 b).1, (read d a).2 ++ (read (read d a).1 b).2) :=
  Transducer.feed_append byteStep d a b

theorem read_ground {d : OscStateDetector} (hd : d.state = .ground) {text : Bytes}
    (h : esc ∉ text) : read d text = (d, []) := by
  induction text with
  | nil => rfl
  | cons b rest ih =>
    rw [List.mem_cons, not_or] at h
    have hstep : byteStep d b = (d, []) := by
      rw [byteStep, if_pos hd, if_neg (Ne.symm h.1)]
    rw [read_cons, hstep, ih h.2]
    rfl

theorem read_skip {d : OscStateDetector} (hd : d.state = .ground) (input : Bytes) :
    read d input = match input.findIdx? (· = esc) with
      | some offset => read { d with state := .esc } (input.drop (offset + 1))
      | none => (d, []) := by
  induction input with
  | nil => rfl
  | cons b rest ih =>
    rw [read_cons, byteStep, if_pos hd, List.findIdx?_cons]
    by_cases hb : b = esc
    · simp [hb]
    simp only [hb, if_false, decide_false, Bool.false_eq_true, List.nil_append, ih]
    cases rest.findIdx? (· = esc) with
    | none => rfl
    | some offset => rfl

/-- **A call reads its bytes one by one.** -/
theorem process_eq (d : OscStateDetector) (input : Bytes) : process d input = read d input := by
  fun_induction process d input with
  | case1 d => rfl
  | case2 d b rest hd offset hoffset ih =>
    rw [read_skip hd, hoffset]
    exact ih
  | case3 d b rest hd hnone =>
    rw [read_skip hd, hnone]
  | case4 d b rest hd r s ih =>
    rw [read_cons, byteStep, if_neg hd, ← ih]

/-- **The cuts make no difference.** -/
theorem process_pieces (d : OscStateDetector) (pieces : List Bytes) :
    Transducer.feed process d pieces = process d pieces.flatten := by
  induction pieces generalizing d with
  | nil => rw [process_eq]; rfl
  | cons piece pieces ih =>
    rw [Transducer.feed_cons, ih, List.flatten_cons, process_eq, process_eq, process_eq, read_append]

end CcPanes.OscDetect

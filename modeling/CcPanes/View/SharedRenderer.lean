import CcPanes.View.DataRenderer

/-!
# Replay and live output through one renderer

During a recovery `writeTerminalReplay` of `terminalReplayChunks.ts` cuts the delta into chunks and
awaits each write; live chunks that arrive between two of them go through the same renderer
(`createTerminalOutputHandler` renders a chunk before it buffers it).
-/

namespace CcPanes.SharedRenderer
open Transducer List

variable {data : JsString}

/-! ## the cuts of a replay -/

/-- `data.slice(a, b)` -/
def slice (data : JsString) (a b : Nat) : JsString := (data.drop a).take (b - a)

def lastIndexOf (c : UInt16) (s : JsString) : Option Nat :=
  if c ∈ s then some (s.length - 1 - s.reverse.idxOf c) else none

/-- the text is an escape, or `ESC [` with parameter characters and then intermediate ones only -/
def isUnfinishedCsi : JsString → Bool
  | [] => false
  | [c] => c == esc
  | c :: d :: rest =>
    c == esc && d == bracket &&
      (rest.dropWhile fun u => 0x30 ≤ u && u ≤ 0x3f).all fun u => 0x20 ≤ u && u ≤ 0x2f

/-- the end of the sequence that is open at `stop` -/
def endOfSequence (data : JsString) (stop : Nat) : Nat :=
  let final := stop + ((data.drop stop).takeWhile (!isFinal ·)).length
  if final < data.length then final + 1 else final

def chunkEnd (data : JsString) (start limit : Nat) : Nat :=
  if min (start + limit) data.length = data.length then data.length
  else
    let last := data.getD (start + limit - 1) 0
    let stop := if 0xd800 ≤ last ∧ last ≤ 0xdbff then start + limit - 1 else start + limit
    match lastIndexOf esc (slice data start stop) with
    | none => stop
    | some localEscape =>
      if isUnfinishedCsi (slice data (start + localEscape) stop) then
        if localEscape > 0 then start + localEscape else endOfSequence data stop
      else stop

/-- the loop from `offset` on -/
def replayFrom (data : JsString) (limit : Nat) : (fuel offset : Nat) → List JsString
  | 0, _ => []
  | fuel + 1, offset =>
    if offset < data.length then
      slice data offset (chunkEnd data offset limit) ::
        replayFrom data limit fuel (chunkEnd data offset limit)
    else []

/-- the chunks that a replay hands to `write`, one after another, unless it is cancelled -/
def writeTerminalReplay (data : JsString) (chunkChars : Nat) : List JsString :=
  replayFrom data (max 256 chunkChars) data.length 0

theorem endOfSequence_bounds {stop : Nat} (h : stop ≤ data.length) :
    stop ≤ endOfSequence data stop ∧ endOfSequence data stop ≤ data.length := by
  have hlen : ((data.drop stop).takeWhile (!isFinal ·)).length ≤ data.length - stop := by
    rw [← length_drop]
    exact (List.takeWhile_prefix _).length_le
  unfold endOfSequence
  simp only
  split <;> omega

theorem chunkEnd_bounds {start limit : Nat} (h : start < data.length) (hlimit : 2 ≤ limit) :
    start < chunkEnd data start limit ∧ chunkEnd data start limit ≤ data.length := by
  unfold chunkEnd
  simp only
  generalize hstop : (if 0xd800 ≤ data.getD (start + limit - 1) 0 ∧
    data.getD (start + limit - 1) 0 ≤ 0xdbff then start + limit - 1 else start + limit) = stop
  have hstop : start < stop ∧ stop ≤ start + limit := by
    rw [← hstop]
    split <;> omega
  split
  · omega
  next hend =>
  have hlen : stop ≤ data.length := by omega
  split
  · omega
  next localEscape hlast =>
  have hin : localEscape < stop - start := by
    unfold lastIndexOf at hlast
    split at hlast
    · cases hlast
      have hslice : (slice data start stop).length ≤ stop - start :=
        (length_take_le _ _)
      omega
    · cases hlast
  have hseq := endOfSequence_bounds hlen
  split
  · split <;> omega
  · omega

theorem replayFrom_flatten {limit : Nat} (hlimit : 2 ≤ limit) {fuel offset : Nat}
    (h : data.length - offset ≤ fuel) :
    (replayFrom data limit fuel offset).flatten = data.drop offset := by
  induction fuel generalizing offset with
  | zero =>
    rw [drop_eq_nil_of_le (by omega)]
    rfl
  | succ fuel ih =>
    unfold replayFrom
    split
    · next hlt =>
      obtain ⟨hgt, hle⟩ := chunkEnd_bounds hlt hlimit
      rw [flatten_cons, ih (by omega), slice]
      have hdrop : data.drop (chunkEnd data offset limit) =
          (data.drop offset).drop (chunkEnd data offset limit - offset) := by
        rw [drop_drop]
        congr 1
        omega
      rw [hdrop, take_append_drop]
    · rw [drop_eq_nil_of_le (by omega)]
      rfl

/-- **The chunks of a replay are its text** -/
theorem writeTerminalReplay_flatten (data : JsString) (chunkChars : Nat) :
    (writeTerminalReplay data chunkChars).flatten = data :=
  replayFrom_flatten (by omega) (by omega)

theorem writeTerminalReplay_ne_nil (h : data ≠ []) (chunkChars : Nat) :
    writeTerminalReplay data chunkChars ≠ [] := by
  intro hnil
  have hflat := writeTerminalReplay_flatten data chunkChars
  rw [hnil] at hflat
  exact h hflat.symm

/-! ## two streams, one renderer -/

section
variable (context : TerminalDataRenderContext) {ps : List (Bool × JsString)}

def renderChunk (r : TerminalDataRenderer) (data : JsString) : TerminalDataRenderer × JsString :=
  render r data context

def Idle (r : TerminalDataRenderer) : Prop := r.pending = ([], [])

/-- `ps` is what the renderer reads, live chunks marked `true` and chunks of the delta `false`: the
delta is written as rendered alone, the live chunks are rendered as alone, and nothing of one stream
is held back when the other comes -/
structure Separate (delta : JsString) (ps : List (Bool × JsString)) : Prop where
  replay : sharedOut (renderChunk context) false createTerminalDataRenderer ps =
    (render createTerminalDataRenderer delta context).2
  live : sharedOut (renderChunk context) true createTerminalDataRenderer ps =
    (feed (renderChunk context) createTerminalDataRenderer (side true ps)).2
  unmixed : Clear (renderChunk context) Idle false createTerminalDataRenderer ps

/-- wherever the streams change, the one that has been read, rendered alone, has nothing
unfinished -/
def UnfinishedNowhere (ps : List (Bool × JsString)) : Prop :=
  AloneClear (renderChunk context) Idle false createTerminalDataRenderer
    createTerminalDataRenderer ps

/-- a cut of the delta is not too far inside an unfinished sequence -/
def ShortCuts (chunks : List JsString) : Prop :=
  ∀ pre post, chunks = pre ++ post → pre ≠ [] → post ≠ [] → ShortTail context pre.flatten

variable {context}

theorem pending_fresh : createTerminalDataRenderer.pending = ([], []) := rfl

theorem renderChunk_sees (context : TerminalDataRenderContext) :
    Sees (renderChunk context) (filters context) TerminalDataRenderer.pending (Serves context) :=
  render_sees context

theorem clear_filters :
    Clear (renderChunk context) Idle false createTerminalDataRenderer ps ↔
      Clear (filters context) (· = ([], [])) false ([], []) ps :=
  (renderChunk_sees context).clear (· = ([], [])) (serves_fresh context)

theorem clear_iff_unfinishedNowhere :
    Clear (renderChunk context) Idle false createTerminalDataRenderer ps ↔
      UnfinishedNowhere context ps := by
  have halone : UnfinishedNowhere context ps ↔
      AloneClear (filters context) (· = ([], [])) false ([], []) ([], []) ps :=
    (renderChunk_sees context).aloneClear (· = ([], [])) (serves_fresh context)
      (serves_fresh context)
  rw [clear_filters, halone, clear_iff]

theorem feed_chunks {delta : JsString} {chunkChars : Nat}
    (h : ShortCuts context (writeTerminalReplay delta chunkChars)) :
    (feed (filters context) ([], []) (writeTerminalReplay delta chunkChars)).2 =
      (filters context ([], []) delta).2 := by
  by_cases hdelta : delta = []
  · subst hdelta
    rw [filters_nil]
    rfl
  · rw [feed_flatten (writeTerminalReplay_ne_nil hdelta chunkChars) fun pre post heq hpre hpost =>
      filters_splits (h pre post heq hpre hpost), writeTerminalReplay_flatten]

/-- **Replay and live output keep apart exactly if neither is inside an unfinished sequence where
they change**, given that the cuts of the delta alone do no harm -/
theorem separate_iff {delta : JsString} {chunkChars : Nat} {ps : List (Bool × JsString)}
    (hps : side false ps = writeTerminalReplay delta chunkChars) :
    (Separate context delta ps → UnfinishedNowhere context ps) ∧
      (UnfinishedNowhere context ps → ShortCuts context (writeTerminalReplay delta chunkChars) →
        Separate context delta ps) := by
  refine ⟨fun h => clear_iff_unfinishedNowhere.mp h.unmixed, fun hclear hcuts => ?_⟩
  have hsees := renderChunk_sees context
  have hfresh := serves_fresh context
  have hunmixed := clear_iff_unfinishedNowhere.mpr hclear
  obtain ⟨hreplay, hlive⟩ := sharedOut_of_clear (clear_filters.mp hunmixed)
  refine ⟨?_, ?_, hunmixed⟩
  · have hwhole : (render createTerminalDataRenderer delta context).2 =
        (filters context ([], []) delta).2 := by
      have hstep := (hsees createTerminalDataRenderer delta hfresh).2
      rw [pending_fresh] at hstep
      rw [hstep]
      rfl
    rw [hsees.sharedOut hfresh, pending_fresh, hreplay, hps, feed_chunks hcuts, hwhole]
  · rw [hsees.sharedOut hfresh, hsees.feed hfresh, pending_fresh]
    exact hlive

end

def stripContext : TerminalDataRenderContext := ⟨true, none, false⟩

/-- `ESC [ ? 10` and `49 h` with the delta `hello` between them -/
def aroundReplay : List (Bool × JsString) :=
  [(true, JsString.ofString "\x1b[?10"), (false, JsString.ofString "hello"),
    (true, JsString.ofString "49h")]

/-- a live chunk that ends inside a sequence: the delta gets its first half, and its second half
reaches the terminal as text -/
theorem mode_split_around_replay :
    side false aroundReplay = writeTerminalReplay (JsString.ofString "hello") 32768 ∧
      sharedOut (renderChunk stripContext) false createTerminalDataRenderer aroundReplay =
        JsString.ofString "\x1b[?10hello" ∧
      sharedOut (renderChunk stripContext) true createTerminalDataRenderer aroundReplay =
        JsString.ofString "49h" ∧
      ¬ Separate stripContext (JsString.ofString "hello") aroundReplay := by
  have hreplay :
      sharedOut (renderChunk stripContext) false createTerminalDataRenderer aroundReplay =
        JsString.ofString "\x1b[?10hello" := by decide +kernel
  have halone : (render createTerminalDataRenderer (JsString.ofString "hello") stripContext).2 =
      JsString.ofString "hello" := by decide +kernel
  refine ⟨by decide +kernel, hreplay, by decide +kernel, fun h => ?_⟩
  have hsame := h.replay
  rw [hreplay, halone] at hsame
  exact absurd hsame (by decide +kernel)

def betweenChunks : List (Bool × JsString) :=
  [(true, JsString.ofString "\x1b[?25h"), (false, JsString.ofString "a\x1b[31mb"),
    (true, JsString.ofString "x")]

theorem separate_iff_finished :
    Separate stripContext (JsString.ofString "a\x1b[31mb") betweenChunks := by
  have hps : side false betweenChunks =
      writeTerminalReplay (JsString.ofString "a\x1b[31mb") 256 := by
    decide +kernel
  have hclear : UnfinishedNowhere stripContext betweenChunks :=
    ⟨rfl, by unfold Idle; decide +kernel, by unfold Idle; decide +kernel, trivial⟩
  refine (separate_iff hps).2 hclear ?_
  rintro pre post heq hpre hpost
  have hone : writeTerminalReplay (JsString.ofString "a\x1b[31mb") 256 =
      [JsString.ofString "a\x1b[31mb"] := by decide +kernel
  have hlen := congrArg length (hone.symm.trans heq)
  rw [length_append, length_singleton] at hlen
  have hpre := length_pos_iff.mpr hpre
  have hpost := length_pos_iff.mpr hpost
  omega

end CcPanes.SharedRenderer

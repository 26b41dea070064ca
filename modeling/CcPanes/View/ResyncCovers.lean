import CcPanes.View.ResyncView

/-!
# Every desync leads to a rebuild that covers it

A view is driven by desync signals, live chunks, flips of its visibility and the answers of the
backend, each of which has all that the backend had when it served the request.
-/

namespace CcPanes
open List

namespace ResyncCovers

open Run ResyncView

/-- what can be seen from outside: signals, with what the backend had by then, and what the view
does -/
inductive Entry (α : Type)
  | desync (emitted : Nat)
  | event (e : ViewEvent α)
  deriving DecidableEq

structure World (α : Type) where
  view : ResyncView α
  /-- the bytes that the backend has -/
  emitted : Nat
  /-- the answer on its way: what the backend had when it served the request -/
  response : Option Nat
  log : List (Entry α)

inductive Action (α : Type)
  | emit (bytes : Nat)
  | desync
  /-- a recovery asked for by hand -/
  | refresh
  | serve
  /-- the answer arrives; otherwise there is no snapshot, or the request fails -/
  | respond (arrived : Bool)
  | view (a : ViewAction α)

section
variable {α : Type} {post : List (Entry α)} {response : Option Nat} {n : Nat} {v : ResyncView α}
  {v' : ResyncView α}

def World.init (renderVisible : Bool) : World α := ⟨.new renderVisible, 0, none, []⟩

def isRequested (v : ResyncView α) : Bool :=
  match v.core with
  | some ⟨_, .requested⟩ => true
  | _ => false

def World.record (w : World α) (r : ResyncView α × List (ViewEvent α)) : World α :=
  { w with view := r.1, log := w.log ++ r.2.map .event }

def World.step (notice : List α) (w : World α) : Action α → World α
  | .emit bytes => { w with emitted := w.emitted + bytes }
  | .desync => { w with view := w.view.desyncHandler, log := w.log ++ [.desync w.emitted] }
  | .refresh => { w with view := w.view.desyncHandler }
  | .serve =>
    if isRequested w.view ∧ w.response = none then { w with response := some w.emitted } else w
  | .respond arrived =>
    if arrived ∧ w.response = none then w
    else
      { w with response := none }.record (w.view.respond (if arrived then w.response else none))
  | .view a => w.record (w.view.step notice a)

/-! ## the claim -/

/-- a recovery is requested, the terminal reset, and its snapshot written, in this order -/
def rebuild (id upTo : Nat) : List (Entry α) :=
  [.event (.requested id), .event (.reset id), .event (.replayed id upTo)]

/-- in `post` there is a rebuild with at least `n` bytes, or the failure notice -/
def Paid (n : Nat) (post : List (Entry α)) : Prop :=
  (∃ id upTo, n ≤ upTo ∧ (rebuild id upTo).Sublist post) ∨ .event .resyncFailedNotice ∈ post

def Covered (log : List (Entry α)) : Prop :=
  ∀ pre n post, log = pre ++ .desync n :: post → Paid n post

def Settled (w : World α) : Prop :=
  w.view.renderVisible = true ∧ w.view.edgePending = false ∧ w.view.core = none ∧
    w.view.settling = []

/-- a signal does not come while a recovery runs whose snapshot has been requested, unless that
recovery has failed already -/
def Fresh (w : World α) : Action α → Prop
  | .desync => ∀ core, w.view.core = some core →
      core.phase = .freezing ∨ core.phase = .preparing ∨ core.phase = .grounding ∨
        core.phase = .restored false
  | _ => True

/-- the running recovery, or with a closed gate the next one, pays for a signal that came with `n`
bytes, before `post` -/
def CoreOwes (gate : Bool) (response : Option Nat) (n : Nat) (post : List (Entry α)) :
    Option CoreResync → Prop
  | none => gate = true
  | some ⟨_, .freezing⟩ => True
  | some ⟨_, .preparing⟩ => True
  | some ⟨id, .requested⟩ =>
    [.event (.requested id)].Sublist post ∧ ∀ upTo, response = some upTo → n ≤ upTo
  | some ⟨id, .replaying upTo⟩ =>
    [.event (.requested id), .event (.reset id)].Sublist post ∧ n ≤ upTo
  | some ⟨_, .grounding⟩ => True
  | some ⟨_, .restored resynced⟩ => resynced = false

def Due (v : ResyncView α) (response : Option Nat) (n : Nat) (post : List (Entry α)) : Prop :=
  Paid n post ∨ (∃ s ∈ v.settling, s.resynced = false) ∨
    CoreOwes v.resyncActive response n post v.core

structure CoverInv (w : World α) : Prop where
  bounded : ∀ n, .desync n ∈ w.log → n ≤ w.emitted
  gate : w.view.core = none → w.view.resyncActive = true →
    w.view.renderVisible = false ∨ w.view.edgePending = true
  answer : isRequested w.view = false → w.response = none
  due : ∀ pre n post, w.log = pre ++ .desync n :: post → Due w.view w.response n post

theorem Paid.mono (h : Paid n post) (es : List (Entry α)) : Paid n (post ++ es) := by
  rcases h with ⟨id, upTo, hn, hs⟩ | hm
  · exact .inl ⟨id, upTo, hn, hs.trans (sublist_append_left post es)⟩
  · exact .inr (mem_append_left es hm)

theorem CoreOwes.mono {gate : Bool} {core : Option CoreResync}
    (h : CoreOwes gate response n post core) (es : List (Entry α)) :
    CoreOwes gate response n (post ++ es) core := by
  have hle := sublist_append_left post es
  match core, h with
  | none, h => exact h
  | some ⟨_, .freezing⟩, _ => trivial
  | some ⟨_, .preparing⟩, _ => trivial
  | some ⟨_, .requested⟩, h => exact ⟨h.1.trans hle, h.2⟩
  | some ⟨_, .replaying _⟩, h => exact ⟨h.1.trans hle, h.2⟩
  | some ⟨_, .grounding⟩, _ => trivial
  | some ⟨_, .restored _⟩, h => exact h

theorem Due.mono (h : Due v response n post) (es : List (Entry α)) :
    Due v response n (post ++ es) :=
  h.imp (fun h => h.mono es) (Or.imp id fun h => h.mono es)

theorem Due.congr (h : Due v response n post) (hc : v'.core = v.core)
    (hg : v'.resyncActive = v.resyncActive) (hs : v'.settling = v.settling) :
    Due v' response n post := by
  unfold Due
  rw [hc, hg, hs]
  exact h

theorem signal_of_append {log : List (Entry α)} {es : List (ViewEvent α)}
    {pre post : List (Entry α)} (h : log ++ es.map .event = pre ++ .desync n :: post) :
    ∃ post', log = pre ++ .desync n :: post' ∧ post = post' ++ es.map .event := by
  have hes : Entry.desync n ∉ es.map .event := by simp
  rcases append_eq_append_iff.mp h with ⟨as, hpre, hes'⟩ | ⟨as, hlog, hpost⟩
  · exact absurd (hes' ▸ mem_append_right as (mem_cons_self ..)) hes
  cases as with
  | nil =>
    rw [nil_append] at hpost
    exact absurd (hpost ▸ mem_cons_self) hes
  | cons a as =>
    obtain ⟨rfl, rfl⟩ := cons.inj hpost
    exact ⟨as, hlog, rfl⟩

theorem CoverInv.record {w : World α} (h : CoverInv w) (response : Option Nat)
    (r : ResyncView α × List (ViewEvent α))
    (hanswer : isRequested r.1 = false → response = none)
    (hgate : r.1.core = none → r.1.resyncActive = true →
      r.1.renderVisible = false ∨ r.1.edgePending = true)
    (hdue : ∀ n post, Due w.view w.response n post → Due r.1 response n (post ++ r.2.map .event)) :
    CoverInv ({ w with response := response }.record r) where
  bounded n hn := by
    rcases mem_append.mp hn with hn | hn
    · exact h.bounded n hn
    · exact absurd hn (by simp)
  gate := hgate
  answer := hanswer
  due pre n post heq := by
    obtain ⟨post', hlog, rfl⟩ := signal_of_append heq
    exact hdue n post' (h.due pre n post' hlog)

/-! ## what one step does -/

theorem due_desyncHandler_of_idle (hc : v.core = none) (response : Option Nat) (n : Nat)
    (post : List (Entry α)) : Due v.desyncHandler response n post := by
  refine .inr (.inr ?_)
  rcases desyncHandler_of_idle hc with ⟨_, heq⟩ | ⟨_, heq⟩
  · rw [heq]
    trivial
  rw [heq]
  show CoreOwes true response n post v.core
  rw [hc]
  rfl

theorem due_desyncHandler (h : Due v response n post) : Due v.desyncHandler response n post := by
  by_cases hc : v.core = none
  · exact due_desyncHandler_of_idle hc response n post
  · rwa [desyncHandler_of_busy hc]

theorem gate_desyncHandler (hc : v.desyncHandler.core = none) :
    v.desyncHandler.renderVisible = false := by
  by_cases hcore : v.core = none
  · rcases desyncHandler_of_idle hcore with ⟨_, heq⟩ | ⟨hv, heq⟩
    · rw [heq] at hc
      cases hc
    · rw [heq]
      exact hv
  · rw [desyncHandler_of_busy hcore] at hc
    exact absurd hc hcore

variable {notice : List α} {w : World α}

theorem isRequested_desyncHandler (v : ResyncView α) :
    isRequested v.desyncHandler = isRequested v := by
  by_cases hc : v.core = none
  · rcases desyncHandler_of_idle hc with ⟨_, heq⟩ | ⟨_, heq⟩
    · rw [heq]
      simp [isRequested, hc]
    · rw [heq]
      rfl
  · rw [desyncHandler_of_busy hc]

theorem CoverInv.desync (h : CoverInv w) (hf : Fresh w .desync) :
    CoverInv (w.step notice .desync) where
  bounded n hn := by
    rcases mem_append.mp hn with hn | hn
    · exact h.bounded n hn
    · exact Nat.le_of_eq (Entry.desync.inj (mem_singleton.mp hn))
  gate hc _ := .inl (gate_desyncHandler hc)
  answer hr := h.answer ((isRequested_desyncHandler w.view).symm.trans hr)
  due pre n post heq := by
    have heq' : w.log ++ [Entry.desync w.emitted] = pre ++ Entry.desync n :: post := heq
    rcases post.eq_nil_or_concat with rfl | ⟨post', x, rfl⟩
    · -- the new signal
      by_cases hc : w.view.core = none
      · exact due_desyncHandler_of_idle hc w.response n []
      obtain ⟨⟨id, phase⟩, hcore⟩ := Option.ne_none_iff_exists'.mp hc
      refine .inr (.inr ?_)
      show CoreOwes _ _ _ _ w.view.desyncHandler.core
      rw [desyncHandler_of_busy hc, hcore]
      rcases hf _ hcore with hp | hp | hp | hp
      all_goals
        dsimp only at hp
        subst hp
      · trivial
      · trivial
      · trivial
      · rfl
    · rw [concat_eq_append] at heq' ⊢
      have happ : w.log ++ [Entry.desync w.emitted] = (pre ++ Entry.desync n :: post') ++ [x] := by
        rw [heq']
        simp
      obtain ⟨hlog, _⟩ := append_inj' happ rfl
      exact (due_desyncHandler (h.due pre n post' hlog)).mono [x]

theorem CoverInv.refresh (h : CoverInv w) : CoverInv (w.step notice .refresh) where
  bounded := h.bounded
  gate hc _ := .inl (gate_desyncHandler hc)
  answer hr := h.answer ((isRequested_desyncHandler w.view).symm.trans hr)
  due pre n post heq := due_desyncHandler (h.due pre n post heq)

theorem CoverInv.emit (h : CoverInv w) (bytes : Nat) : CoverInv (w.step notice (.emit bytes)) where
  bounded n hn := Nat.le_trans (h.bounded n hn) (Nat.le_add_right _ _)
  gate := h.gate
  answer := h.answer
  due := h.due

theorem CoverInv.serve (h : CoverInv w) : CoverInv (w.step notice .serve) := by
  simp only [World.step]
  split
  · next hs =>
    refine ⟨h.bounded, h.gate, fun hr => absurd (hs.1.symm.trans hr) (by simp),
      fun pre n post heq => ?_⟩
    have hn : n ≤ w.emitted := h.bounded n (heq ▸ mem_append_right _ mem_cons_self)
    rcases h.due pre n post heq with hp | hp | hp
    · exact .inl hp
    · exact .inr (.inl hp)
    refine .inr (.inr ?_)
    revert hp
    show CoreOwes _ _ _ _ w.view.core → CoreOwes _ _ _ _ w.view.core
    match w.view.core with
    | none => exact id
    | some ⟨_, .freezing⟩ => exact id
    | some ⟨_, .preparing⟩ => exact id
    | some ⟨_, .requested⟩ => exact fun hp => ⟨hp.1, fun upTo hu => Option.some.inj hu ▸ hn⟩
    | some ⟨_, .replaying _⟩ => exact id
    | some ⟨_, .grounding⟩ => exact id
    | some ⟨_, .restored _⟩ => exact id
  · exact h

theorem Due.core {response response' : Option Nat}
    {post es : List (Entry α)} (h : Due v response n post) (hs : v'.settling = v.settling)
    (hc : CoreOwes v.resyncActive response n post v.core →
      Paid n (post ++ es) ∨ CoreOwes v'.resyncActive response' n (post ++ es) v'.core) :
    Due v' response' n (post ++ es) := by
  rcases h with hp | hp | hp
  · exact .inl (hp.mono es)
  · exact .inr (.inl (hs ▸ hp))
  · exact (hc hp).imp id .inr

theorem Due.unanswered (h : Due v response n post) : Due v none n post := by
  rcases h with hp | hp | hp
  · exact .inl hp
  · exact .inr (.inl hp)
  refine .inr (.inr ?_)
  revert hp
  match v.core with
  | none => exact id
  | some ⟨_, .freezing⟩ => exact id
  | some ⟨_, .preparing⟩ => exact id
  | some ⟨_, .requested⟩ => exact fun hp => ⟨hp.1, nofun⟩
  | some ⟨_, .replaying _⟩ => exact id
  | some ⟨_, .grounding⟩ => exact id
  | some ⟨_, .restored _⟩ => exact id

theorem CoverInv.advance (h : CoverInv w) {id : Nat} {phase phase' : ResyncPhase}
    {r : ResyncView α × List (ViewEvent α)}
    (hcore : w.view.core = some ⟨id, phase⟩) (hcore' : r.1.core = some ⟨id, phase'⟩)
    (hs : r.1.settling = w.view.settling) (hanswer : response = none)
    (hdue : ∀ n post, CoreOwes w.view.resyncActive w.response n post (some ⟨id, phase⟩) →
      Paid n (post ++ r.2.map .event) ∨
        CoreOwes r.1.resyncActive response n (post ++ r.2.map .event) (some ⟨id, phase'⟩)) :
    CoverInv ({ w with response := response }.record r) := by
  refine h.record response r (fun _ => hanswer) (fun hc => ?_) (fun n post hd => ?_)
  · rw [hcore'] at hc
    cases hc
  refine hd.core hs fun ho => ?_
  rw [hcore] at ho
  rw [hcore']
  exact hdue n post ho

theorem CoverInv.stay (h : CoverInv w) : CoverInv (w.record (w.view, [])) :=
  h.record w.response (w.view, []) h.answer h.gate fun _ _ hd => hd.mono []

theorem CoverInv.respond (h : CoverInv w) (arrived : Bool) :
    CoverInv (w.step notice (.respond arrived)) := by
  simp only [World.step]
  split
  · exact h
  rcases respond_cases w.view (if arrived then w.response else none) with
    heq | ⟨id, hcore, ⟨upTo, hs, heq⟩ | ⟨_, heq⟩⟩
  · rw [heq]
    exact h.record none _ (fun _ => rfl) h.gate fun _ _ hd => hd.unanswered.mono _
  · rw [heq]
    refine h.advance hcore rfl rfl rfl fun n post ho => .inr ⟨?_, ?_⟩
    · exact (ho.1.append (List.Sublist.refl [Entry.event (.reset id)])).trans
        ((sublist_append_left _ _).append_left post)
    · cases arrived with
      | true => exact ho.2 upTo hs
      | false => cases hs
  · rw [heq]
    exact h.advance hcore rfl rfl rfl fun n post _ => .inr trivial

/-! ## the view by itself -/

theorem CoverInv.prepare (h : CoverInv w) : CoverInv (w.step notice (.view .prepare)) := by
  show CoverInv (w.record (w.view.prepare, []))
  rcases prepare_cases w.view with heq | ⟨id, hcore, heq⟩
  · rw [heq]
    exact h.stay
  · rw [heq]
    exact h.advance hcore rfl rfl (h.answer (by simp [isRequested, hcore]))
      fun n post _ => .inr trivial

theorem CoverInv.groundDone (h : CoverInv w) : CoverInv (w.step notice (.view .groundDone)) := by
  show CoverInv (w.record (w.view.groundDone, []))
  rcases groundDone_cases w.view with heq | ⟨id, hcore, heq⟩
  · rw [heq]
    exact h.stay
  · rw [heq]
    exact h.advance hcore rfl rfl (h.answer (by simp [isRequested, hcore]))
      fun n post _ => .inr rfl

theorem CoverInv.send (h : CoverInv w) : CoverInv (w.step notice (.view .send)) := by
  show CoverInv (w.record w.view.send)
  rcases send_cases w.view with heq | ⟨id, hcore, heq⟩
  · rw [heq]
    exact h.stay
  rw [heq]
  have hr := h.answer (by simp [isRequested, hcore])
  refine h.advance hcore rfl rfl hr fun n post _ => .inr ⟨sublist_append_right _ _, ?_⟩
  intro upTo hu
  cases hr.symm.trans hu

theorem CoverInv.replayDone (h : CoverInv w) (ok : Bool) :
    CoverInv (w.step notice (.view (.replayDone ok))) := by
  show CoverInv (w.record (w.view.replayDone ok))
  rcases replayDone_cases w.view ok with heq | ⟨id, upTo, hcore, heq⟩
  · rw [heq]
    exact h.stay
  rw [heq]
  refine h.advance hcore rfl rfl (h.answer (by simp [isRequested, hcore])) fun n post ho => ?_
  cases ok with
  | false => exact .inr rfl
  | true =>
    refine .inl (.inl ⟨id, upTo, ho.2, ?_⟩)
    exact ho.1.append (List.Sublist.refl [Entry.event (.replayed id upTo)])

theorem Due.settling {id : Nat} {awaits : Option Nat} {resynced : Bool}
    (h : Due v response n post) (hcore : v.core = some ⟨id, .restored resynced⟩)
    (hs : v'.settling = v.settling ++ [⟨awaits, resynced⟩]) : Due v' response n post := by
  rcases h with hp | ⟨s, hs', hres⟩ | ho
  · exact .inl hp
  · exact .inr (.inl ⟨s, hs ▸ mem_append_left _ hs', hres⟩)
  · rw [hcore] at ho
    exact .inr (.inl ⟨⟨awaits, resynced⟩, hs ▸ mem_append_right _ mem_cons_self, ho⟩)

theorem CoverInv.settle (h : CoverInv w) : CoverInv (w.step notice (.view .settle)) := by
  show CoverInv (w.record (w.view.settle notice, []))
  rcases settle_cases notice w.view with heq | ⟨id, resynced, hcore, hcases⟩
  · rw [heq]
    exact h.stay
  have hr := h.answer (by simp [isRequested, hcore])
  rcases hcases with heq | ⟨_, awaits, heq | heq⟩
  · rw [heq]
    exact h.record w.response _ (fun _ => hr) (fun hc _ => .inl (gate_desyncHandler hc))
      fun n post _ => due_desyncHandler_of_idle rfl _ _ _
  · rw [heq]
    exact h.record w.response _ (fun _ => hr) (nofun)
      fun n post hd => (hd.settling hcore rfl).mono []
  · rw [heq]
    exact h.record w.response _ (fun _ => hr) (nofun)
      fun n post hd => (hd.settling hcore rfl).mono []

theorem CoverInv.settled (h : CoverInv w) (i : Nat) :
    CoverInv (w.step notice (.view (.settled i))) := by
  show CoverInv (w.record (w.view.settled i))
  rcases settled_cases w.view i with heq | ⟨s, hs, heq⟩
  · rw [heq]
    exact h.stay
  rw [heq]
  refine h.record w.response _ h.answer h.gate fun n post hd => ?_
  cases hres : s.resynced with
  | false => exact .inl (.inr (mem_append_right _ (by simp)))
  | true =>
    rcases hd with hp | ⟨s', hs', hres'⟩ | ho
    · exact .inl (hp.mono _)
    · refine .inr (.inl ⟨s', ?_, hres'⟩)
      obtain ⟨j, hj⟩ := mem_iff_getElem?.mp hs'
      have hne : j ≠ i := by
        rintro rfl
        rw [hs] at hj
        rw [Option.some.inj hj, hres'] at hres
        cases hres
      exact mem_eraseIdx_iff_getElem?.mpr ⟨j, hne, hj⟩
    · exact .inr (.inr (ho.mono _))

theorem CoverInv.visibleEdge (h : CoverInv w) : CoverInv (w.step notice (.view .visibleEdge)) := by
  show CoverInv (w.record (if w.view.edgePending then _ else _, []))
  by_cases he : w.view.edgePending
  · rw [if_pos he]
    unfold restoreVisibleTerminalView
    rcases flushHiddenWrites_cases notice { w.view with edgePending := false } with
      heq | ⟨hg, _, heq | heq⟩
    · rw [heq]
      refine h.record w.response _ (fun hr => ?_) (fun hc _ => .inl (gate_desyncHandler hc))
        fun n post hd => ?_
      · exact h.answer
          ((isRequested_desyncHandler { w.view with edgePending := false }).symm.trans hr)
      have hd' : Due { w.view with edgePending := false } w.response n post :=
        hd.congr rfl rfl rfl
      exact (due_desyncHandler hd').mono []
    · rw [heq]
      exact h.record w.response _ h.answer (fun _ hg' => by cases hg.symm.trans hg')
        fun n post hd => (hd.congr rfl rfl rfl).mono []
    · rw [heq]
      exact h.record w.response _ h.answer (fun _ hg' => by cases hg.symm.trans hg')
        fun n post hd => (hd.congr rfl rfl rfl).mono []
  · rw [if_neg he]
    exact h.stay

theorem CoverInv.frame (h : CoverInv w) {r : ResyncView α × List (ViewEvent α)}
    (hc : r.1.core = w.view.core) (hg : r.1.resyncActive = w.view.resyncActive)
    (hs : r.1.settling = w.view.settling)
    (hv : w.view.renderVisible = false ∨ w.view.edgePending = true →
      r.1.renderVisible = false ∨ r.1.edgePending = true) : CoverInv (w.record r) :=
  h.record w.response r (fun hr => h.answer (by rw [← hr, isRequested, isRequested, hc]))
    (fun hc' hg' => hv (h.gate (hc.symm.trans hc') (hg.symm.trans hg')))
    fun _ _ hd => (hd.congr hc hg hs).mono _

theorem CoverInv.view (h : CoverInv w) (a : ViewAction α) : CoverInv (w.step notice (.view a)) := by
  cases a with
  | shown =>
    show CoverInv (w.record (if w.view.renderVisible then _ else _, []))
    by_cases hv : w.view.renderVisible
    · rw [if_pos hv]
      exact h.stay
    · rw [if_neg hv]
      exact h.frame rfl rfl rfl fun _ => .inr rfl
  | hidden => exact h.frame rfl rfl rfl fun _ => .inl rfl
  | visibleEdge => exact h.visibleEdge
  | output maxPendingChars renderedData =>
    show CoverInv (w.record (w.view.step notice (.output maxPendingChars renderedData)))
    simp only [ResyncView.step, ResyncView.output]
    split
    · next heq =>
      obtain ⟨rfl, _⟩ := Prod.mk.inj heq
      exact h.frame rfl rfl rfl id
    · next heq =>
      obtain ⟨rfl, _⟩ := Prod.mk.inj heq
      exact h.frame rfl rfl rfl id
  | prepare => exact h.prepare
  | send => exact h.send
  | replayDone ok => exact h.replayDone ok
  | groundDone => exact h.groundDone
  | settle => exact h.settle
  | startFlush k =>
    show CoverInv (w.record (w.view.startFlush k))
    rw [startFlush_eq]
    exact h.frame rfl rfl rfl id
  | finishFlush k => exact h.frame rfl rfl rfl id
  | settled i => exact h.settled i

theorem CoverInv.step {a : Action α} (h : CoverInv w) (hf : Fresh w a) :
    CoverInv (w.step notice a) := by
  cases a with
  | emit bytes => exact h.emit bytes
  | desync => exact h.desync hf
  | refresh => exact h.refresh
  | serve => exact h.serve
  | respond arrived => exact h.respond arrived
  | view a => exact h.view a

theorem coverInv_init (renderVisible : Bool) : CoverInv (World.init renderVisible : World α) where
  bounded _ hn := absurd hn (by simp [World.init])
  gate _ hg := absurd hg (by simp [World.init, ResyncView.new])
  answer _ := rfl
  due pre n post heq := absurd heq (by simp [World.init])

theorem CoverInv.covered (h : CoverInv w) (hs : Settled w) : Covered w.log := by
  intro pre n post heq
  obtain ⟨hv, he, hc, hnone⟩ := hs
  rcases h.due pre n post heq with hp | ⟨s, hmem, _⟩ | ho
  · exact hp
  · rw [hnone] at hmem
    cases hmem
  rw [hc] at ho
  rcases h.gate hc ho with hv' | he'
  · rw [hv] at hv'
    cases hv'
  · rw [he] at he'
    cases he'

/-- **Every desync leads to a rebuild that covers it**: in every run in which no signal comes while
the snapshot of a running recovery is already requested, whenever everything has settled with the
view visible, every signal is followed by the request for a snapshot, a reset and the snapshot with
all that the backend had when the signal came, or by the failure notice. -/
theorem desync_covered (notice : List α) (renderVisible : Bool) (as : List (Action α))
    (hf : StepsOk (World.step notice) Fresh (World.init renderVisible) as) :
    Along (World.step notice) (fun w => Settled w → Covered w.log) (World.init renderVisible) as :=
  (along_of_inv (fun _ _ h hf => h.step hf) (coverInv_init renderVisible) hf).mono
    fun _ h hs => h.covered hs

end

def absorbedRun : List (Action Nat) :=
  [.desync, .view .prepare, .view .send, .emit 7, .serve, .emit 5, .desync, .respond true,
    .view (.replayDone true), .view .settle, .view (.settled 0)]

/-- a visible view: the second signal is absorbed, and its gap stays on the screen -/
theorem absorbed_desync_uncovered : ¬ ∀ (notice : List Nat) (visible : Bool)
    (as : List (Action Nat)),
    Along (World.step notice) (fun w => Settled w → Covered w.log) (World.init visible) as := by
  intro h
  have hlast := (h [] true absorbedRun).last ⟨by decide, by decide, by decide, by decide⟩
  have hpaid := hlast [.desync 0, .event (.requested 0)] 12
    [.event (.reset 0), .event (.replay 0 7), .event (.replayed 0 7)] (by decide)
  rcases hpaid with ⟨id, upTo, _, hs⟩ | hm
  · have hmem := hs.subset mem_cons_self
    simp at hmem
  · simp at hm

def recoveryRun : List (Action Nat) :=
  [.desync, .view .prepare, .view .send, .emit 7, .serve, .respond true,
    .view (.replayDone true), .view .settle, .view (.settled 0)]

theorem desync_covered_single : StepsOk (World.step []) Fresh (World.init true) recoveryRun ∧
    Along (World.step []) (fun w => Settled w → Covered w.log) (World.init true) recoveryRun := by
  have hf : StepsOk (World.step []) Fresh (World.init true) recoveryRun :=
    ⟨fun core hc => absurd hc (by simp [World.init, ResyncView.new]), trivial, trivial, trivial,
      trivial, trivial, trivial, trivial, trivial, trivial⟩
  exact ⟨hf, desync_covered [] true recoveryRun hf⟩

end ResyncCovers

end CcPanes

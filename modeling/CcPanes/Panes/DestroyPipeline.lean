import CcPanes.Panes.PanesStore

/-!
# The destruction of tabs

`lib/tabLifecycle/destroyPipeline.ts` and `registry.ts`: what belongs to a tab is given back when
the tab goes.  The close guards are questions to the user, asked before, and are left out.
-/

namespace CcPanes.Panes
open List Option

inductive DestroyReason
  | userClose
  | batchClose
  | closePane
  | deleteLayout
  | snapshotApply
  | backendClose
  | editorPathClose
deriving DecidableEq

structure DestroyPolicy where
  vetoable : Bool
  recordsClosedTabs : Bool
  respectsPinned : Bool
  kills : Bool
  closesPopups : Bool

def destroyPolicy : DestroyReason → DestroyPolicy
  | .userClose => ⟨true, true, true, true, true⟩
  | .batchClose => ⟨true, true, true, true, true⟩
  | .closePane => ⟨true, true, false, true, true⟩
  | .deleteLayout => ⟨true, false, false, true, true⟩
  | .snapshotApply => ⟨false, false, false, true, true⟩
  | .backendClose => ⟨false, false, false, false, true⟩
  | .editorPathClose => ⟨false, false, false, false, false⟩

inductive KillReason
  | userClose
  | mcp
  | orphanReclaim
  | daemonReaper
  | launchTimeout
  | unknown
deriving DecidableEq

def destroyKillReason : DestroyReason → Option KillReason
  | .userClose => some .userClose
  | .batchClose => some .userClose
  | .closePane => some .userClose
  | .deleteLayout => some .userClose
  | .snapshotApply => some .userClose
  | .backendClose => none
  | .editorPathClose => none

/-- a call to a service or to a store; `dropSession` also takes the session out of the view -/
inductive ResourceEffect
  | detachOutput (sessionId : String)
  | detachExit (sessionId : String)
  | killSession (sessionId : String) (reason : Option KillReason)
  | closeWindow (tabId : String)
  | removeSession (sessionId : String)
  | clearSession (sessionId : String)
  | dropSession (sessionId : String)
  | disposeSessionScopedResources (sessionId : String)
  | closeBrowser (tabId : String)
  | stopDsh (tabId : String)
  | stopAgentChat (tabId : String)
  | dropAgentChatState (tabId : String)
  | clearTabViewState (tabId : String)
  | exitFullscreen
  | removeOwner (tabId : String)
  | clearAttention (tabId : String)

def ResourceEffect.sessionId : ResourceEffect → Option String
  | .detachOutput s | .detachExit s | .killSession s _ | .removeSession s | .clearSession s
  | .dropSession s | .disposeSessionScopedResources s => some s
  | _ => none

def ResourceEffect.isKillOf (sessionId : String) : ResourceEffect → Bool
  | .killSession s _ => s == sessionId
  | _ => false

/-- what is read from outside the store -/
structure Runtime where
  tauri : Bool
  /-- the tabs with a window of their own -/
  poppedTabs : List String
  fullscreenTabId : Option String
  editorCursor : String → Option (Nat × Nat)

structure DestroyPlan where
  reason : DestroyReason
  policy : DestroyPolicy
  tabs : List Tab
  skippedPinnedTabIds : List String
  sessionIds : List String
  poppedOutTabIds : List String

def planTabDestroy (rt : Runtime) (tabs : List Tab) (reason : DestroyReason) : DestroyPlan :=
  let policy := destroyPolicy reason
  let included := tabs.filter fun tab => !(policy.respectsPinned && tab.pinned)
  { reason := reason
    policy := policy
    tabs := included
    skippedPinnedTabIds :=
      (tabs.filter fun tab => policy.respectsPinned && tab.pinned).map Tab.id
    sessionIds := (included.flatMap collectTerminalSessionIdsWithSaved).eraseDups
    poppedOutTabIds := ((included.map Tab.id).filter rt.poppedTabs.contains).eraseDups }

/-- what the registry has for the kind of the tab, the session being detached already -/
def onClosed (rt : Runtime) (tab : Tab) : List ResourceEffect :=
  match tab.content with
  | .terminal _ => (collectTerminalSessionIdsWithSaved tab).flatMap fun s =>
      [.removeSession s, .clearSession s, .dropSession s]
  | .browser _ => if rt.tauri then [.closeBrowser tab.id] else []
  | .dsh _ =>
    if rt.tauri then [.stopDsh tab.id, .closeBrowser tab.id, .clearTabViewState tab.id] else []
  | .agentChat =>
    [.dropAgentChatState tab.id, .clearTabViewState tab.id] ++
      if rt.tauri then [.stopAgentChat tab.id] else []
  | .editor _ _ => [.clearTabViewState tab.id]
  | _ => []

def closePoppedWindows (rt : Runtime) (tabIds : List String) : List ResourceEffect :=
  if rt.tauri then (tabIds.filter rt.poppedTabs.contains).map .closeWindow else []

def destroySessionsDirectly (rt : Runtime) (sessionIds poppedOutTabIds : List String)
    (reason : DestroyReason) (protectSessionIds : List String) : List ResourceEffect :=
  let policy := destroyPolicy reason
  (sessionIds.flatMap fun s => [.detachOutput s, .detachExit s]) ++
    ((if policy.kills then
      (sessionIds.filter fun s => !protectSessionIds.contains s).map fun s =>
        .killSession s (destroyKillReason reason)
    else []) ++
    if policy.closesPopups then closePoppedWindows rt poppedOutTabIds else [])

def commitResourceDestroy (rt : Runtime) (tabs : List Tab) (reason : DestroyReason)
    (protectSessionIds : List String) : List ResourceEffect :=
  let plan := planTabDestroy rt tabs reason
  destroySessionsDirectly rt plan.sessionIds plan.poppedOutTabIds reason protectSessionIds ++
    (plan.tabs.flatMap (onClosed rt) ++ plan.sessionIds.map .disposeSessionScopedResources)

/-! ## the sessions that are affected -/

theorem nodup_eraseDups : ∀ (n : Nat) (l : List String), l.length ≤ n → l.eraseDups.Nodup
  | _, [], _ => nodup_nil
  | n + 1, a :: l, h => by
    rw [eraseDups_cons, nodup_cons]
    have hlen : (l.filter fun b => !b == a).length ≤ n :=
      (length_filter_le ..).trans (Nat.le_of_succ_le_succ h)
    refine ⟨fun hmem => ?_, nodup_eraseDups n _ hlen⟩
    have hne := (mem_filter.mp (mem_eraseDups.mp hmem)).2
    simp at hne

section
variable {rt : Runtime} {tabs : List Tab} {reason : DestroyReason} {protectSessionIds : List String}
  {s : String}

theorem mem_plan_sessionIds : s ∈ (planTabDestroy rt tabs reason).sessionIds ↔
    ∃ tab ∈ (planTabDestroy rt tabs reason).tabs, s ∈ collectTerminalSessionIdsWithSaved tab := by
  show s ∈ eraseDups _ ↔ _
  rw [mem_eraseDups, mem_flatMap]
  exact Iff.rfl

theorem plan_sessionIds_nodup : (planTabDestroy rt tabs reason).sessionIds.Nodup :=
  nodup_eraseDups _ _ (Nat.le_refl _)

theorem onClosed_session {tab : Tab} {e : ResourceEffect} (he : e ∈ onClosed rt tab)
    (hs : e.sessionId = some s) : s ∈ collectTerminalSessionIdsWithSaved tab := by
  unfold onClosed at he
  split at he
  · obtain ⟨s', hs', he⟩ := mem_flatMap.mp he
    have heq : s' = s := by
      simp only [mem_cons, not_mem_nil, or_false] at he
      rcases he with rfl | rfl | rfl <;> exact some.inj hs
    exact heq ▸ hs'
  all_goals
    exfalso
    revert hs
    revert e
    cases rt.tauri <;> simp [ResourceEffect.sessionId]

theorem closePoppedWindows_session {tabIds : List String} {e : ResourceEffect}
    (he : e ∈ closePoppedWindows rt tabIds) : e.sessionId = none := by
  unfold closePoppedWindows at he
  split at he
  · obtain ⟨tabId, -, rfl⟩ := mem_map.mp he
    rfl
  · cases he

theorem commit_session {e : ResourceEffect}
    (he : e ∈ commitResourceDestroy rt tabs reason protectSessionIds)
    (hs : e.sessionId = some s) : s ∈ (planTabDestroy rt tabs reason).sessionIds := by
  unfold commitResourceDestroy destroySessionsDirectly at he
  simp only [mem_append] at he
  rcases he with (he | he | he) | he | he
  · obtain ⟨s', hs', he⟩ := mem_flatMap.mp he
    have heq : s' = s := by
      simp only [mem_cons, not_mem_nil, or_false] at he
      rcases he with rfl | rfl <;> exact some.inj hs
    exact heq ▸ hs'
  · split at he
    · obtain ⟨s', hs', rfl⟩ := mem_map.mp he
      exact some.inj hs ▸ mem_of_mem_filter hs'
    · cases he
  · split at he
    · rw [closePoppedWindows_session he] at hs
      cases hs
    · cases he
  · obtain ⟨tab, htab, he⟩ := mem_flatMap.mp he
    exact mem_plan_sessionIds.mpr ⟨tab, htab, onClosed_session he hs⟩
  · obtain ⟨s', hs', rfl⟩ := mem_map.mp he
    exact some.inj hs ▸ hs'

variable (protectSessionIds) in
theorem commit_detaches (hs : s ∈ (planTabDestroy rt tabs reason).sessionIds) :
    .detachOutput s ∈ commitResourceDestroy rt tabs reason protectSessionIds ∧
      .detachExit s ∈ commitResourceDestroy rt tabs reason protectSessionIds := by
  have hin : ∀ e ∈ [ResourceEffect.detachOutput s, .detachExit s],
      e ∈ commitResourceDestroy rt tabs reason protectSessionIds := fun e he =>
    mem_append_left _ (mem_append_left _ (mem_flatMap.mpr ⟨s, hs, he⟩))
  exact ⟨hin _ (mem_cons_self ..), hin _ (mem_cons_of_mem _ (mem_cons_self ..))⟩

theorem countP_kills_eq_zero {effects : List ResourceEffect}
    (h : ∀ e ∈ effects, ∀ reason, e ≠ .killSession s reason) :
    effects.countP (ResourceEffect.isKillOf s) = 0 := by
  refine countP_eq_zero.mpr fun e he hkill => ?_
  cases e with
  | killSession s' reason =>
    have heq : s' = s := by simpa [ResourceEffect.isKillOf] using hkill
    exact h _ he reason (heq ▸ rfl)
  | _ => cases hkill

theorem onClosed_kills {tab : Tab} : ∀ e ∈ onClosed rt tab, ∀ reason, e ≠ .killSession s reason := by
  intro e he reason heq
  subst heq
  unfold onClosed at he
  split at he
  · obtain ⟨s', -, he⟩ := mem_flatMap.mp he
    simp at he
  all_goals
    revert he
    cases rt.tauri <;> simp

theorem commit_kills (hs : s ∈ (planTabDestroy rt tabs reason).sessionIds) :
    (commitResourceDestroy rt tabs reason protectSessionIds).countP (ResourceEffect.isKillOf s) =
      if (destroyPolicy reason).kills ∧ s ∉ protectSessionIds then 1 else 0 := by
  have hdetach : ∀ e ∈ (planTabDestroy rt tabs reason).sessionIds.flatMap fun s =>
      [ResourceEffect.detachOutput s, .detachExit s], ∀ reason, e ≠ .killSession s reason := by
    intro e he reason heq
    obtain ⟨s', -, he⟩ := mem_flatMap.mp he
    subst heq
    simp at he
  have hwindows : ∀ e ∈ (if (destroyPolicy reason).closesPopups then
      closePoppedWindows rt (planTabDestroy rt tabs reason).poppedOutTabIds else []),
      ∀ reason, e ≠ .killSession s reason := by
    intro e he reason heq
    subst heq
    split at he
    · cases closePoppedWindows_session he
    · cases he
  have hclosed : ∀ e ∈ (planTabDestroy rt tabs reason).tabs.flatMap (onClosed rt),
      ∀ reason, e ≠ .killSession s reason := by
    intro e he
    obtain ⟨tab, -, he⟩ := mem_flatMap.mp he
    exact onClosed_kills e he
  have hdispose : ∀ e ∈ (planTabDestroy rt tabs reason).sessionIds.map
      ResourceEffect.disposeSessionScopedResources, ∀ reason, e ≠ .killSession s reason := by
    intro e he reason heq
    obtain ⟨s', -, rfl⟩ := mem_map.mp he
    cases heq
  unfold commitResourceDestroy destroySessionsDirectly
  simp only [countP_append]
  rw [countP_kills_eq_zero hdetach, countP_kills_eq_zero hwindows, countP_kills_eq_zero hclosed,
    countP_kills_eq_zero hdispose]
  simp only [Nat.zero_add, Nat.add_zero]
  by_cases hkills : (destroyPolicy reason).kills = true
  · rw [if_pos hkills, countP_map]
    by_cases hprotect : s ∈ protectSessionIds
    · rw [if_neg fun h => h.2 hprotect]
      refine count_eq_zero_of_not_mem fun hmem => ?_
      simp [hprotect] at hmem
    · rw [if_pos ⟨hkills, hprotect⟩]
      refine count_eq_one_of_mem (plan_sessionIds_nodup.filter _) ?_
      simp [hprotect, hs]
  · rw [if_neg hkills, if_neg fun h => hkills h.1]
    rfl

end

end CcPanes.Panes

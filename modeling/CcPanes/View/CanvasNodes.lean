import CcPanes.Foundation.JsString
import Mathlib.Data.List.Nodup
import Mathlib.Data.List.Pairwise

/-!
# The nodes of the canvas

Nodes refer to their parents by id, by tab or by session.  `parentNodeId` of `canvasGeometry.ts`
resolves the reference for the layout; `deriveParentEdges` and `derivePipeEdges` of
`canvasProjection.ts` resolve it again, for the edges that are drawn.
-/

namespace CcPanes.Canvas
open List Option

inductive Role where
  | task
  | leader
  | worker
deriving DecidableEq

inductive Kind where
  | task
  | terminal
  | media
deriving DecidableEq

structure CanvasNodeProjection where
  id : JsString
  kind : Kind
  role : Option Role
  bindingId : Option JsString
  sessionId : Option JsString
  tabId : Option JsString
  parentTabId : Option JsString
  parentSessionId : Option JsString
  parentId : Option JsString
deriving DecidableEq

abbrev Node := CanvasNodeProjection

def truthy (s : Option JsString) : Option JsString := s.filter (· ≠ [])

/-- `new Map(entries).get(key)`: the last entry of a key counts -/
def mapGet {β : Type} (entries : List (JsString × β)) (key : JsString) : Option β :=
  (entries.reverse.find? (·.1 = key)).map Prod.snd

/-- the entries from a reference that nodes may have to the node -/
def entriesBy (ref : Node → Option JsString) (nodes : List Node) : List (JsString × JsString) :=
  nodes.filterMap fun node => (truthy (ref node)).map fun key => (key, node.id)

def setById (byId : List Node) (node : Node) : List Node :=
  if node.id ∈ byId.map (·.id) then byId.map fun old => if old.id = node.id then node else old
  else byId ++ [node]

/-- the values of `new Map(nodes.map((node) => [node.id, node]))` -/
def byId (nodes : List Node) : List Node := nodes.foldl setById []

/-- `byTabId.get(node.parentTabId)`, `bySessionId.get(node.parentSessionId)` -/
def lookupBy (ref parentRef : Node → Option JsString) (nodes : List Node) (node : Node) :
    Option JsString :=
  (truthy (parentRef node)).bind (mapGet (entriesBy ref nodes))

/-- a worker belongs to the leader if there is one -/
def soleLeader (leaders : List Node) (node : Node) : Option JsString :=
  if node.role = some .worker then
    match leaders with
    | [leader] => if leader.id ≠ node.id then some leader.id else none
    | _ => none
  else none

def parentNodeId (nodes : List Node) (node : Node) : Option JsString :=
  let byReference := (truthy node.parentId).filter (· ∈ (byId nodes).map (·.id))
  let byTab := truthy (lookupBy (·.tabId) (·.parentTabId) nodes node)
  let bySession := truthy (lookupBy (·.sessionId) (·.parentSessionId) nodes node)
  let leaders := (byId nodes).filter (·.role = some .leader)
  byReference.or (byTab.or (bySession.or (soleLeader leaders node)))

/-! ## edges -/

structure PipeEdge where
  id : JsString
  sourceId : JsString
  targetId : JsString

structure CanvasPipeEvent where
  sourceId : Option JsString
  fromBinding : Option JsString
  fromSession : Option JsString
  targetId : Option JsString
  toBinding : Option JsString
  toSession : Option JsString

structure CanvasMediaEdgeProjection where
  id : JsString
  sourceNodeId : JsString
  targetNodeId : JsString

def parentEdge (parentId id : JsString) : PipeEdge :=
  ⟨JsString.ofString "pipe:" ++ parentId ++ JsString.ofString "->" ++ id, parentId, id⟩

def deriveParentEdge (nodes : List Node) (node : Node) : Option PipeEdge :=
  let leaders := nodes.filter (·.role = some .leader)
  let parentId :=
    ((truthy node.parentId).filter (· ∈ nodes.map (·.id))).or
      ((lookupBy (·.tabId) (·.parentTabId) nodes node).or
        ((lookupBy (·.sessionId) (·.parentSessionId) nodes node).or (soleLeader leaders node)))
  ((truthy parentId).filter (· ≠ node.id)).map (parentEdge · node.id)

def deriveParentEdges (nodes : List Node) : List PipeEdge := nodes.filterMap (deriveParentEdge nodes)

/-- `eventEndpointId` of one side -/
def eventEndpointId (id binding session : Option JsString) : Option JsString :=
  id.or (((truthy binding).map (JsString.ofString "binding:" ++ ·)).or
    ((truthy session).map (JsString.ofString "session:" ++ ·)))

def resolveEventNodeId (nodes : List Node) (id : JsString) : JsString :=
  let byBinding := mapGet (entriesBy (·.bindingId) nodes)
  let bySession := mapGet (entriesBy (·.sessionId) nodes)
  if id ∈ nodes.map (·.id) then id
  else if (JsString.ofString "binding:").isPrefixOf id then (byBinding (id.drop 8)).getD id
  else if (JsString.ofString "session:").isPrefixOf id then (bySession (id.drop 8)).getD id
  else ((byBinding id).or (bySession id)).getD id

/-- `[sourceId, targetId].sort().join("\u0000")` -/
def undirectedEdgeKey (sourceId targetId : JsString) : JsString :=
  if targetId < sourceId then targetId ++ 0 :: sourceId else sourceId ++ 0 :: targetId

/-- a further edge, if it joins two nodes that are not joined yet -/
def pushEdge (nodes : List Node) (edges : List PipeEdge × List JsString) (edge : PipeEdge) :
    List PipeEdge × List JsString :=
  if edge.sourceId = edge.targetId then edges
  else if edge.sourceId ∉ nodes.map (·.id) ∨ edge.targetId ∉ nodes.map (·.id) then edges
  else
    let pair := undirectedEdgeKey edge.sourceId edge.targetId
    if pair ∈ edges.2 then edges else (edges.1 ++ [edge], edges.2 ++ [pair])

def eventEdge (nodes : List Node) (event : CanvasPipeEvent) : Option PipeEdge := do
  let endpoint id binding session := truthy
    ((truthy (eventEndpointId id binding session)).map (resolveEventNodeId nodes))
  let sourceId ← endpoint event.sourceId event.fromBinding event.fromSession
  let targetId ← endpoint event.targetId event.toBinding event.toSession
  some ⟨JsString.ofString "pipe:event:" ++ sourceId ++ JsString.ofString "->" ++ targetId,
    sourceId, targetId⟩

def mediaId (nodeId : JsString) : JsString :=
  if (JsString.ofString "media:").isPrefixOf nodeId then nodeId
  else JsString.ofString "media:" ++ nodeId

def mediaEdge (edge : CanvasMediaEdgeProjection) : PipeEdge :=
  ⟨JsString.ofString "media-edge:" ++ edge.id, mediaId edge.sourceNodeId, mediaId edge.targetNodeId⟩

def derivePipeEdges (nodes : List Node) (events : List CanvasPipeEvent)
    (mediaEdges : List CanvasMediaEdgeProjection) : List PipeEdge :=
  let edges := deriveParentEdges nodes
  let pairs := edges.map fun edge => undirectedEdgeKey edge.sourceId edge.targetId
  let withEvents := (events.filterMap (eventEdge nodes)).foldl (pushEdge nodes) (edges, pairs)
  ((mediaEdges.map mediaEdge).foldl (pushEdge nodes) withEvents).1

/-! ## the agreement -/

variable {nodes : List Node} {n m : Node} {edges : List PipeEdge}

/-- as the projection makes them: ids are not empty, and different -/
structure Identified (nodes : List Node) : Prop where
  nodup : (nodes.map (·.id)).Nodup
  ne_nil : ∀ n ∈ nodes, n.id ≠ []

def SamePair (e f : PipeEdge) : Prop :=
  e.sourceId = f.sourceId ∧ e.targetId = f.targetId ∨
    e.sourceId = f.targetId ∧ e.targetId = f.sourceId

structure Agree (nodes : List Node) (edges : List PipeEdge) : Prop where
  ends : ∀ e ∈ edges, e.sourceId ∈ nodes.map (·.id) ∧ e.targetId ∈ nodes.map (·.id)
  no_loop : ∀ e ∈ edges, e.sourceId ≠ e.targetId
  once : edges.Pairwise fun e f => ¬ SamePair e f
  parents : ∀ n ∈ nodes, ∀ p, (∃ e ∈ deriveParentEdges nodes, e.sourceId = p ∧ e.targetId = n.id) ↔
    parentNodeId nodes n = some p ∧ p ≠ n.id

def NoMutualParents (nodes : List Node) : Prop :=
  ∀ n ∈ nodes, ∀ m ∈ nodes, parentNodeId nodes n = some m.id → parentNodeId nodes m = some n.id →
    n.id = m.id

theorem byId_eq (h : (nodes.map (·.id)).Nodup) : byId nodes = nodes := by
  suffices ∀ acc : List Node, ((acc ++ nodes).map (·.id)).Nodup →
      nodes.foldl setById acc = acc ++ nodes from this [] h
  clear h
  induction nodes with
  | nil => exact fun acc _ => (append_nil acc).symm
  | cons n nodes ih =>
    intro acc hacc
    rw [append_cons] at hacc ⊢
    rw [foldl_cons, show setById acc n = acc ++ [n] from if_neg ?_]
    · exact ih (acc ++ [n]) hacc
    · rw [map_append, map_append] at hacc
      exact fun hmem => (nodup_append.mp (nodup_append.mp hacc).1).2.2 _ hmem _ (by simp) rfl

theorem mapGet_entriesBy {ref : Node → Option JsString} {key p : JsString}
    (h : mapGet (entriesBy ref nodes) key = some p) : p ∈ nodes.map (·.id) := by
  unfold mapGet at h
  obtain ⟨entry, hfind, rfl⟩ := map_eq_some_iff.mp h
  have hmem := mem_reverse.mp (mem_of_find?_eq_some hfind)
  obtain ⟨node, hnode, hentry⟩ := mem_filterMap.mp hmem
  obtain ⟨key', -, rfl⟩ := map_eq_some_iff.mp hentry
  exact mem_map_of_mem hnode

theorem lookupBy_mem {ref parentRef : Node → Option JsString} {p : JsString}
    (h : lookupBy ref parentRef nodes n = some p) : p ∈ nodes.map (·.id) := by
  obtain ⟨key, -, hget⟩ := bind_eq_some_iff.mp h
  exact mapGet_entriesBy hget

theorem Identified.truthy_eq (h : Identified nodes) {s : Option JsString}
    (hs : ∀ p, s = some p → p ∈ nodes.map (·.id)) : truthy s = s := by
  cases s with
  | none => rfl
  | some p =>
    obtain ⟨node, hnode, rfl⟩ := mem_map.mp (hs p rfl)
    exact filter_some_pos (decide_eq_true (h.ne_nil node hnode))

theorem soleLeader_mem {p : JsString}
    (h : soleLeader (nodes.filter (·.role = some .leader)) n = some p) : p ∈ nodes.map (·.id) := by
  unfold soleLeader at h
  split_ifs at h
  split at h
  · next leader hleaders =>
    split_ifs at h
    cases h
    have hmem : leader ∈ nodes.filter (·.role = some .leader) := by simp [hleaders]
    exact mem_map_of_mem (mem_filter.mp hmem).1
  · cases h

theorem parentNodeId_mem (h : Identified nodes) {p : JsString}
    (hp : parentNodeId nodes n = some p) : p ∈ nodes.map (·.id) := by
  unfold parentNodeId at hp
  rw [byId_eq h.nodup] at hp
  dsimp only at hp
  rcases or_eq_some_iff.mp hp with hp | ⟨-, hp⟩
  · exact of_decide_eq_true (filter_eq_some_iff.mp hp).2
  rcases or_eq_some_iff.mp hp with hp | ⟨-, hp⟩
  · exact lookupBy_mem (filter_eq_some_iff.mp hp).1
  rcases or_eq_some_iff.mp hp with hp | ⟨-, hp⟩
  · exact lookupBy_mem (filter_eq_some_iff.mp hp).1
  · exact soleLeader_mem hp

theorem deriveParentEdge_eq (h : Identified nodes) (n : Node) :
    deriveParentEdge nodes n =
      ((parentNodeId nodes n).filter (· ≠ n.id)).map (parentEdge · n.id) := by
  have hparent := h.truthy_eq fun p => parentNodeId_mem h (n := n)
  rw [← hparent]
  unfold parentNodeId deriveParentEdge
  rw [byId_eq h.nodup, h.truthy_eq fun p => lookupBy_mem, h.truthy_eq fun p => lookupBy_mem]

theorem of_mem_deriveParentEdges (h : Identified nodes) {e : PipeEdge}
    (he : e ∈ deriveParentEdges nodes) : ∃ n ∈ nodes, parentNodeId nodes n = some e.sourceId ∧
      e.sourceId ≠ n.id ∧ e.targetId = n.id := by
  obtain ⟨n, hn, he⟩ := mem_filterMap.mp he
  rw [deriveParentEdge_eq h] at he
  obtain ⟨p, hp, rfl⟩ := map_eq_some_iff.mp he
  obtain ⟨hp, hne⟩ := filter_eq_some_iff.mp hp
  exact ⟨n, hn, hp, of_decide_eq_true hne, rfl⟩

theorem parentEdge_mem (h : Identified nodes) {p : JsString} (hn : n ∈ nodes)
    (hp : parentNodeId nodes n = some p) (hne : p ≠ n.id) :
    parentEdge p n.id ∈ deriveParentEdges nodes := by
  refine mem_filterMap.mpr ⟨n, hn, ?_⟩
  rw [deriveParentEdge_eq h, hp]
  exact congrArg (Option.map (parentEdge · n.id)) (Option.filter_some_pos (decide_eq_true hne))

theorem Identified.eq_of_id (h : Identified nodes) (hn : n ∈ nodes) (hm : m ∈ nodes)
    (hid : n.id = m.id) : n = m :=
  inj_on_of_nodup_map h.nodup hn hm hid

/-- **Where no two nodes are each other's parent, no two parent edges join the same nodes.** -/
theorem parent_edges_once (h : Identified nodes) :
    ((deriveParentEdges nodes).Pairwise fun e f => ¬ SamePair e f) ↔ NoMutualParents nodes := by
  constructor
  · intro honce n hn m hm hnm hmn
    by_contra hne
    have hsymm : Std.Symm fun e f => ¬ SamePair e f := by
      refine ⟨fun e f hef => ?_⟩
      rintro (⟨h1, h2⟩ | ⟨h1, h2⟩)
      · exact hef (.inl ⟨h1.symm, h2.symm⟩)
      · exact hef (.inr ⟨h2.symm, h1.symm⟩)
    refine honce.forall (parentEdge_mem h hn hnm (Ne.symm hne)) (parentEdge_mem h hm hmn hne) ?_
      (.inr ⟨rfl, rfl⟩)
    exact fun heq => hne (congrArg PipeEdge.targetId heq)
  intro hmutual
  have hids : nodes.Pairwise fun n m => n.id ≠ m.id := pairwise_map.mp h.nodup
  unfold deriveParentEdges
  rw [pairwise_filterMap]
  refine hids.imp_of_mem fun {n m} hn hm hne e he f hf => ?_
  rw [deriveParentEdge_eq h] at he hf
  obtain ⟨p, hp, rfl⟩ := map_eq_some_iff.mp he
  obtain ⟨q, hq, rfl⟩ := map_eq_some_iff.mp hf
  have hp := (filter_eq_some_iff.mp hp).1
  have hq := (filter_eq_some_iff.mp hq).1
  rintro (⟨-, hid⟩ | ⟨hpm, hnq⟩)
  · exact hne hid
  · obtain rfl : p = m.id := hpm
    obtain rfl : n.id = q := hnq
    exact hne (hmutual n hn m hm hp hq)

/-! ## further edges -/

theorem undirectedEdgeKey_comm (a b : JsString) : undirectedEdgeKey a b = undirectedEdgeKey b a := by
  unfold undirectedEdgeKey
  by_cases hab : a < b
  · rw [if_neg (List.lt_asymm hab), if_pos hab]
  · by_cases hba : b < a
    · rw [if_pos hba, if_neg hab]
    · rw [List.le_antisymm (List.not_lt.mp hba) (List.not_lt.mp hab)]

theorem key_of_samePair {e f : PipeEdge} (h : SamePair e f) :
    undirectedEdgeKey e.sourceId e.targetId = undirectedEdgeKey f.sourceId f.targetId := by
  rcases h with ⟨hs, ht⟩ | ⟨hs, ht⟩
  · rw [hs, ht]
  · rw [hs, ht, undirectedEdgeKey_comm]

structure Joined (nodes : List Node) (edges : List PipeEdge × List JsString) : Prop where
  ends : ∀ e ∈ edges.1, e.sourceId ∈ nodes.map (·.id) ∧ e.targetId ∈ nodes.map (·.id)
  no_loop : ∀ e ∈ edges.1, e.sourceId ≠ e.targetId
  once : edges.1.Pairwise fun e f => ¬ SamePair e f
  pairs : ∀ e ∈ edges.1, undirectedEdgeKey e.sourceId e.targetId ∈ edges.2

theorem Joined.pushEdge {edges : List PipeEdge × List JsString} (h : Joined nodes edges)
    (e : PipeEdge) : Joined nodes (pushEdge nodes edges e) := by
  unfold Canvas.pushEdge
  dsimp only
  split_ifs with hloop hids hpair
  · exact h
  · exact h
  · exact h
  rw [not_or, not_not, not_not] at hids
  have hall {P : PipeEdge → Prop} (hP : ∀ f ∈ edges.1, P f) (he : P e) :
      ∀ f ∈ edges.1 ++ [e], P f := by
    simpa [or_imp, forall_and] using ⟨hP, he⟩
  refine ⟨hall h.ends hids, hall h.no_loop hloop, ?_, ?_⟩
  · refine pairwise_append.mpr ⟨h.once, pairwise_singleton _ e, fun f hf g hg hsame => ?_⟩
    obtain rfl := mem_singleton.mp hg
    exact hpair (key_of_samePair hsame ▸ h.pairs f hf)
  · exact hall (fun f hf => mem_append_left _ (h.pairs f hf)) (by simp)

theorem joined_foldl {edges : List PipeEdge × List JsString} (h : Joined nodes edges)
    (more : List PipeEdge) : Joined nodes (more.foldl (pushEdge nodes) edges) := by
  induction more generalizing edges with
  | nil => exact h
  | cons e more ih => exact ih (h.pushEdge e)

theorem sublist_foldl (edges : List PipeEdge × List JsString) (more : List PipeEdge) :
    edges.1 <+ (more.foldl (pushEdge nodes) edges).1 := by
  induction more generalizing edges with
  | nil => exact Sublist.refl _
  | cons e more ih =>
    refine Sublist.trans ?_ (ih (pushEdge nodes edges e))
    unfold pushEdge
    dsimp only
    split_ifs
    · exact Sublist.refl _
    · exact Sublist.refl _
    · exact Sublist.refl _
    · exact sublist_append_left _ _

/-- **The edges agree with the layout iff no two nodes are each other's parent.** -/
theorem edges_agree_iff (nodes : List Node) (h : Identified nodes) (events : List CanvasPipeEvent)
    (mediaEdges : List CanvasMediaEdgeProjection) :
    Agree nodes (derivePipeEdges nodes events mediaEdges) ↔ NoMutualParents nodes := by
  rw [← parent_edges_once h]
  constructor
  · intro hagree
    refine hagree.once.sublist ?_
    exact (@sublist_foldl nodes (_, _) _).trans (sublist_foldl _ _)
  intro honce
  have hstart : Joined nodes (deriveParentEdges nodes, (deriveParentEdges nodes).map fun edge =>
      undirectedEdgeKey edge.sourceId edge.targetId) := by
    refine ⟨fun e he => ?_, fun e he => ?_, honce, fun e he => mem_map_of_mem he⟩
    · obtain ⟨n, hn, hp, -, ht⟩ := of_mem_deriveParentEdges h he
      exact ⟨parentNodeId_mem h hp, ht ▸ mem_map_of_mem hn⟩
    · obtain ⟨n, -, -, hne, ht⟩ := of_mem_deriveParentEdges h he
      exact ht ▸ hne
  have hend := joined_foldl (joined_foldl hstart (events.filterMap (eventEdge nodes)))
    (mediaEdges.map mediaEdge)
  refine ⟨hend.ends, hend.no_loop, hend.once, fun n hn p => ?_⟩
  constructor
  · rintro ⟨e, he, rfl, ht⟩
    obtain ⟨m, hm, hp, hne, ht'⟩ := of_mem_deriveParentEdges h he
    obtain rfl := h.eq_of_id hn hm (ht.symm.trans ht')
    exact ⟨hp, hne⟩
  · rintro ⟨hp, hne⟩
    exact ⟨_, parentEdge_mem h hn hp hne, rfl, rfl⟩

def child (id parentId : JsString) : Node :=
  ⟨id, .task, none, none, none, none, none, none, some parentId⟩

theorem chain_agrees : Agree [child [1] [2], child [2] [3]]
    (derivePipeEdges [child [1] [2], child [2] [3]] [] []) :=
  (edges_agree_iff _ ⟨by decide, by decide⟩ [] []).mpr (by unfold NoMutualParents; decide)

/-- two bindings that name each other as parent are joined twice -/
theorem mutual_parents_twice : ¬ ∀ nodes : List Node, Identified nodes →
    Agree nodes (derivePipeEdges nodes [] []) := by
  intro h
  have honce := (h [child [1] [2], child [2] [1]] ⟨by decide, by decide⟩).once
  unfold SamePair at honce
  revert honce
  decide

end CcPanes.Canvas

import CcPanes.Foundation.DepthFirst
import CcPanes.Media.RunRequests

/-!
# The edges between media nodes

`create_node`, `update_node`, `delete_node`, `create_edge` and `delete_edge` of `media_service.rs`.
A new edge is refused if a search from its target finds its source; the search reads the edges of
one workspace.
-/

namespace CcPanes.MediaEdges
open RunCreation DepthFirst Run Relation List

structure CanvasNode extends MediaNode where
  layoutId : String
  title : String
  defaultOperation : MediaOperation

inductive MediaEdgeSelector where
  | latestSucceeded | specificAsset
deriving DecidableEq

structure MediaEdge where
  id : String
  workspaceId : String
  layoutId : String
  sourceNodeId : String
  sourcePort : String
  targetNodeId : String
  targetPort : String
  selector : MediaEdgeSelector
  assetId : Option String
  createdAt : String

/-- the tables `media_nodes` and `media_edges` -/
structure MediaGraph where
  nodes : List CanvasNode
  edges : List MediaEdge

/-- What a call reads beside the graph: the other tables, the registry of projects, the clock and a
new id.  `insertError` is the text of an error of the insertion. -/
structure GraphReads where
  codec : MediaCodec
  getAsset : String → Except String (Option MediaAsset)
  /-- the column `run_id` of an asset -/
  assetRun : MediaAsset → Option String
  /-- the node and the status of a run -/
  getRun : String → Except String (Option (String × MediaRunStatus))
  findProject : Option (String → String → Except String Bool)
  newId : String
  now : String
  insertError : String

structure CreateMediaNodeRequest where
  workspaceId : String
  layoutId : String
  kind : MediaKind
  title : String
  defaultOperation : Option MediaOperation
  providerRef : Option MediaProviderRef
  parameters : Option Json

structure UpdateMediaNodeRequest where
  title : Option String
  defaultOperation : Option MediaOperation
  providerRef : Option MediaProviderRef
  parameters : Option Json

structure CreateMediaEdgeRequest where
  workspaceId : String
  layoutId : String
  sourceNodeId : String
  sourcePort : String
  targetNodeId : String
  targetPort : String
  selector : Option MediaEdgeSelector
  assetId : Option String

def maxTitleBytes : Nat := 256

def cleanTitle (value : String) : AppResult String :=
  if trim value = "" ∨ maxTitleBytes < (trim value).utf8ByteSize then
    .error (.coded "MEDIA_TITLE_INVALID" "media title is empty or too long")
  else .ok (trim value)

def validateScope (workspaceId layoutId : String) : AppResult Unit := do
  validateId workspaceId "workspaceId"
  validateId layoutId "layoutId"

def validateOperationKind (kind : MediaKind) (operation : MediaOperation) : AppResult Unit :=
  require (operation.supportsKind kind) "MEDIA_OPERATION_KIND_MISMATCH"
    ("operation " ++ operation.asStr ++ " does not produce " ++ kind.asStr)

def validateParameters (codec : MediaCodec) (value : Json) : AppResult Unit := do
  validateJson codec value
  require (value matches .null || value.isObject) "MEDIA_PARAMETERS_INVALID"
    "media node parameters must be a JSON object"

def validateProviderRef : Option MediaProviderRef → AppResult Unit
  | none => .ok ()
  | some provider => do
    validateId provider.providerId "providerId"
    validateId provider.modelId "modelId"

def defaultOperation : MediaKind → MediaOperation
  | .image => .textToImage
  | .video => .textToVideo

/-! ## the nodes -/

section
variable (reads : GraphReads) (g : MediaGraph)

def findNode (id : String) : Option CanvasNode := g.nodes.find? (·.id = id)

/-- `get_node` of the service -/
def getNode (id : String) : AppResult (Option CanvasNode) := do
  validateId id "nodeId"
  .ok (findNode g id)

def scopeOf (workspaceId : String) (value : Json) : AppResult (Option MediaScope) :=
  mediaScopeFromValue
    { getNode := fun id => .ok ((findNode g id).map (·.toMediaNode))
      getAsset := reads.getAsset
      findProject := reads.findProject } workspaceId value

def newNode (req : CreateMediaNodeRequest) : AppResult CanvasNode := do
  validateScope req.workspaceId req.layoutId
  let title ← cleanTitle req.title
  let operation := req.defaultOperation.getD (defaultOperation req.kind)
  validateOperationKind req.kind operation
  let parameters := req.parameters.getD (.object [])
  validateParameters reads.codec parameters
  let parameters := if parameters matches .null then .object [] else parameters
  let _ ← scopeOf reads g req.workspaceId parameters
  validateProviderRef req.providerRef
  .ok {
    id := reads.newId
    workspaceId := req.workspaceId
    layoutId := req.layoutId
    kind := req.kind
    title
    defaultOperation := operation
    providerRef := req.providerRef
    parameters
    deletedAt := none }

/-- the id is the primary key -/
def createNode (req : CreateMediaNodeRequest) : AppResult CanvasNode × MediaGraph :=
  match newNode reads g req with
  | .error e => (.error e, g)
  | .ok node =>
    if (findNode g node.id).isSome then
      (.error (.message none ("Failed to insert media node: " ++ reads.insertError)), g)
    else (.ok node, { g with nodes := g.nodes ++ [node] })

/-- `WHERE id = ? AND deleted_at IS NULL`, and whether there is such a row -/
def modifyNode (id : String) (f : CanvasNode → CanvasNode) : Bool × MediaGraph :=
  (g.nodes.any fun node => node.id = id && node.deletedAt.isNone,
    { g with nodes := g.nodes.map fun node =>
        if node.id = id && node.deletedAt.isNone then f node else node })

/-- the columns that a request sets -/
def setColumns (req : UpdateMediaNodeRequest) (node : CanvasNode) : CanvasNode :=
  { node with
    title := req.title.getD node.title
    defaultOperation := req.defaultOperation.getD node.defaultOperation
    providerRef := req.providerRef.or node.providerRef
    parameters := req.parameters.getD node.parameters }

def UpdateMediaNodeRequest.isEmpty (req : UpdateMediaNodeRequest) : Bool :=
  req.title.isNone && req.defaultOperation.isNone && req.providerRef.isNone &&
    req.parameters.isNone

def checkUpdate (id : String) (req : UpdateMediaNodeRequest) : AppResult Unit := do
  validateId id "nodeId"
  match findNode g id with
  | none => .error (.coded "MEDIA_NODE_NOT_FOUND" "media node not found")
  | some node =>
    match req.title with
    | some title => let _ ← cleanTitle title
    | none => pure ()
    match req.defaultOperation with
    | some operation => validateOperationKind node.kind operation
    | none => pure ()
    match req.parameters with
    | some parameters =>
      validateParameters reads.codec parameters
      let _ ← scopeOf reads g node.workspaceId parameters
    | none => pure ()
    validateProviderRef req.providerRef

def updateNode (id : String) (req : UpdateMediaNodeRequest) : AppResult CanvasNode × MediaGraph :=
  match checkUpdate reads g id req with
  | .error e => (.error e, g)
  | .ok () =>
    let (changed, g') := if req.isEmpty then (false, g) else modifyNode g id (setColumns req)
    if !changed then (.error (.coded "MEDIA_NODE_NOT_FOUND" "media node not found"), g')
    else
      match findNode g' id with
      | none =>
        (.error (.coded "MEDIA_NODE_NOT_FOUND" "media node disappeared after update"), g')
      | some node => (.ok node, g')

def deleteNode (id : String) : AppResult Bool × MediaGraph :=
  match validateId id "nodeId" with
  | .error e => (.error e, g)
  | .ok () =>
    let (changed, g') := modifyNode g id fun node =>
      { node with toMediaNode := { node.toMediaNode with deletedAt := some reads.now } }
    (.ok changed, g')

/-! ## the edges -/

/-- `list_edges` of a workspace, over its layouts, as pairs of nodes -/
def links (edges : List MediaEdge) : List (String × String) :=
  edges.map fun e => (e.sourceNodeId, e.targetNodeId)

def listEdges (workspaceId : String) : List MediaEdge :=
  g.edges.filter (·.workspaceId = workspaceId)

def wouldCreateEdgeCycle (sourceNodeId targetNodeId : String) : AppResult Bool := do
  let found ← getNode g sourceNodeId
  match found with
  | none => .error (.coded "MEDIA_NODE_NOT_FOUND" "source node not found")
  | some source =>
    .ok (search (links (listEdges g source.workspaceId)) sourceNodeId [targetNodeId] [])

/-- `eq_ignore_ascii_case("poster")` of the role -/
def isPoster (asset : MediaAsset) : Bool :=
  ((assetRole asset).bind Json.asStr).any fun role => role.map Char.toLower = "poster"

/-- the checks on the asset of an edge -/
def checkEdgeAsset (req : CreateMediaEdgeRequest) (source : CanvasNode) (assetId : String) :
    AppResult Unit := do
  validateId assetId "assetId"
  let found ← fromRepo (reads.getAsset assetId)
  match found with
  | none => .error (.coded "MEDIA_ASSET_NOT_FOUND" "edge asset not found")
  | some asset =>
    require (asset.workspaceId = req.workspaceId) "MEDIA_WORKSPACE_MISMATCH"
      "edge asset belongs to another workspace"
    require (mimeMatchesKind asset.mimeType (some source.kind) ||
        !(source.kind = .video && isPoster asset)) "MEDIA_EDGE_ASSET_INVALID"
      "a poster asset cannot be used as a video data edge"
    require (mimeMatchesKind asset.mimeType (some source.kind)) "MEDIA_EDGE_KIND_MISMATCH"
      "edge asset type does not match the source media node"
    match reads.assetRun asset with
    | none =>
      .error (.coded "MEDIA_EDGE_ASSET_INVALID" "specific edge asset must belong to a media run")
    | some runId =>
      validateId runId "runId"
      let run ← fromRepo (reads.getRun runId)
      match run with
      | none => .error (.coded "MEDIA_RUN_NOT_FOUND" "edge asset run not found")
      | some (nodeId, status) =>
        require (nodeId = source.id && status = .succeeded) "MEDIA_EDGE_ASSET_INVALID"
          "specific edge asset must be a succeeded output of the source node"

def requireNode (id text : String) : AppResult CanvasNode := do
  let found ← getNode g id
  match found with
  | none => .error (.coded "MEDIA_NODE_NOT_FOUND" text)
  | some node => .ok node

/-- the checks on the nodes and the asset of an edge -/
def checkEdge (req : CreateMediaEdgeRequest) : AppResult MediaEdgeSelector := do
  let source ← requireNode g req.sourceNodeId "source media node not found"
  let target ← requireNode g req.targetNodeId "target media node not found"
  require (source.deletedAt.isNone && target.deletedAt.isNone) "MEDIA_NODE_DELETED"
    "edges cannot reference deleted media nodes"
  require (source.workspaceId = req.workspaceId && target.workspaceId = req.workspaceId &&
      source.layoutId = req.layoutId && target.layoutId = req.layoutId)
    "MEDIA_WORKSPACE_MISMATCH" "edge nodes must share workspace and layout"
  let sourceScope ← scopeOf reads g source.workspaceId source.parameters
  let targetScope ← scopeOf reads g target.workspaceId target.parameters
  require (sourceScope.map (·.projectId) = targetScope.map (·.projectId))
    "MEDIA_PROJECT_MISMATCH" "edge nodes must share a project scope"
  let selector := req.selector.getD .latestSucceeded
  require (!(selector = .specificAsset && req.assetId.isNone)) "MEDIA_ASSET_REQUIRED"
    "specific asset selector requires assetId"
  require (!(selector = .latestSucceeded && req.assetId.isSome)) "MEDIA_ASSET_UNEXPECTED"
    "latest succeeded selector cannot include assetId"
  match req.assetId with
  | some assetId => checkEdgeAsset reads req source assetId
  | none => pure ()
  .ok selector

def validatePorts (req : CreateMediaEdgeRequest) : AppResult Unit := do
  validateScope req.workspaceId req.layoutId
  validateId req.sourceNodeId "sourceNodeId"
  validateId req.targetNodeId "targetNodeId"
  validateId req.sourcePort "sourcePort"
  validateId req.targetPort "targetPort"

def newEdge (req : CreateMediaEdgeRequest) : AppResult MediaEdge := do
  validatePorts req
  if req.sourceNodeId = req.targetNodeId then
    .error (.coded "MEDIA_EDGE_CYCLE" "a media node cannot connect to itself")
  else
    let selector ← checkEdge reads g req
    let cycle ← wouldCreateEdgeCycle g req.sourceNodeId req.targetNodeId
    if cycle then .error (.coded "MEDIA_EDGE_CYCLE" "media edge would create a cycle")
    else
      .ok {
        id := reads.newId
        workspaceId := req.workspaceId
        layoutId := req.layoutId
        sourceNodeId := req.sourceNodeId
        sourcePort := req.sourcePort
        targetNodeId := req.targetNodeId
        targetPort := req.targetPort
        selector
        assetId := req.assetId
        createdAt := reads.now }

/-- the id, and the nodes and ports, are keys -/
def createEdge (req : CreateMediaEdgeRequest) : AppResult MediaEdge × MediaGraph :=
  match newEdge reads g req with
  | .error e => (.error e, g)
  | .ok edge =>
    if g.edges.any fun e => e.id = edge.id || (e.sourceNodeId = edge.sourceNodeId &&
        e.sourcePort = edge.sourcePort && e.targetNodeId = edge.targetNodeId &&
        e.targetPort = edge.targetPort) then
      (.error (.message none ("Failed to insert media edge: " ++ reads.insertError)), g)
    else (.ok edge, { g with edges := g.edges ++ [edge] })

def deleteEdge (id : String) : AppResult Bool × MediaGraph :=
  match validateId id "edgeId" with
  | .error e => (.error e, g)
  | .ok () => (.ok (g.edges.any (·.id = id)), { g with edges := g.edges.filter (·.id ≠ id) })

end

inductive GraphCall where
  | createNode (req : CreateMediaNodeRequest)
  | updateNode (id : String) (req : UpdateMediaNodeRequest)
  | deleteNode (id : String)
  | createEdge (req : CreateMediaEdgeRequest)
  | deleteEdge (id : String)

def step (g : MediaGraph) (call : GraphReads × GraphCall) : MediaGraph :=
  match call.2 with
  | .createNode req => (createNode call.1 g req).2
  | .updateNode id req => (updateNode call.1 g id req).2
  | .deleteNode id => (deleteNode call.1 g id).2
  | .createEdge req => (createEdge call.1 g req).2
  | .deleteEdge id => (deleteEdge g id).2

/-! ## refusals -/

def NotCycle {α : Type} (result : AppResult α) : Prop :=
  ∀ text, result ≠ .error (.coded "MEDIA_EDGE_CYCLE" text)

section
variable {α β : Type} {reads : GraphReads} {g : MediaGraph} {req : CreateMediaEdgeRequest}

theorem notCycle_ok (a : α) : NotCycle (.ok a) := nofun

theorem notCycle_coded {code text : String} (h : code ≠ "MEDIA_EDGE_CYCLE") :
    NotCycle (.error (.coded code text) : AppResult α) := by
  intro text' heq
  have heq := Except.error.inj heq
  simp only [AppError.coded, AppError.message.injEq, Option.some.injEq] at heq
  exact h heq.1

theorem notCycle_require {cond : Bool} {code text : String} (h : code ≠ "MEDIA_EDGE_CYCLE") :
    NotCycle (require cond code text) := by
  cases cond with
  | true => exact notCycle_ok ()
  | false => exact notCycle_coded h

theorem notCycle_fromRepo (answer : Except String α) : NotCycle (fromRepo answer) := by
  cases answer with
  | ok a => exact notCycle_ok a
  | error => nofun

theorem NotCycle.bind {x : AppResult α} {f : α → AppResult β} (hx : NotCycle x)
    (hf : ∀ a, NotCycle (f a)) : NotCycle (x >>= f) := by
  cases x with
  | error => exact fun text h => hx text (congrArg _ (Except.error.inj h))
  | ok a => exact hf a

theorem notCycle_validateId (value field : String) : NotCycle (validateId value field) :=
  notCycle_require (by decide)

theorem notCycle_mediaScope (reads : MediaReads) (workspaceId : String) (value : Json) :
    NotCycle (mediaScopeFromValue reads workspaceId value) := by
  have hregistered (workspaceId projectId : String) :
      NotCycle (ensureRegisteredProject reads workspaceId projectId) := by
    unfold ensureRegisteredProject
    split
    · exact notCycle_ok ()
    · exact (notCycle_fromRepo _).bind fun _ => notCycle_require (by decide)
  unfold mediaScopeFromValue
  split
  · exact notCycle_ok none
  split
  · exact notCycle_coded (by decide)
  split
  · exact notCycle_coded (by decide)
  · exact notCycle_coded (by decide)
  refine (notCycle_validateId _ _).bind fun _ => (notCycle_validateId _ _).bind fun _ => ?_
  refine (notCycle_require (by decide)).bind fun _ => ?_
  refine (notCycle_require (by decide)).bind fun _ => ?_
  exact (hregistered _ _).bind fun _ => notCycle_ok _

theorem notCycle_getNode (g : MediaGraph) (id : String) : NotCycle (getNode g id) :=
  (notCycle_validateId _ _).bind fun _ => notCycle_ok _

theorem notCycle_checkEdge (reads : GraphReads) (g : MediaGraph) (req : CreateMediaEdgeRequest) :
    NotCycle (checkEdge reads g req) := by
  have hnode (id text : String) : NotCycle (requireNode g id text) := by
    refine (notCycle_getNode g id).bind fun found => ?_
    cases found with
    | none => exact notCycle_coded (by decide)
    | some node => exact notCycle_ok node
  have hasset (source : CanvasNode) (assetId : String) :
      NotCycle (checkEdgeAsset reads req source assetId) := by
    refine (notCycle_validateId _ _).bind fun _ => (notCycle_fromRepo _).bind fun found => ?_
    cases found with
    | none => exact notCycle_coded (by decide)
    | some =>
      refine (notCycle_require (by decide)).bind fun _ => ?_
      refine (notCycle_require (by decide)).bind fun _ => ?_
      refine (notCycle_require (by decide)).bind fun _ => ?_
      split
      · exact notCycle_coded (by decide)
      refine (notCycle_validateId _ _).bind fun _ => (notCycle_fromRepo _).bind fun run => ?_
      cases run with
      | none => exact notCycle_coded (by decide)
      | some => exact notCycle_require (by decide)
  refine (hnode _ _).bind fun source => (hnode _ _).bind fun target => ?_
  refine (notCycle_require (by decide)).bind fun _ => ?_
  refine (notCycle_require (by decide)).bind fun _ => ?_
  refine (notCycle_mediaScope _ _ _).bind fun _ => (notCycle_mediaScope _ _ _).bind fun _ => ?_
  refine (notCycle_require (by decide)).bind fun _ => ?_
  refine (notCycle_require (by decide)).bind fun _ => ?_
  refine (notCycle_require (by decide)).bind fun _ => ?_
  cases req.assetId with
  | none => exact notCycle_ok _
  | some assetId => exact (hasset source assetId).bind fun _ => notCycle_ok _

/-! ## one call -/

theorem ok_of_require {cond : Bool} {code text : String} {u : Unit}
    (h : require cond code text = .ok u) : cond := by
  cases cond with
  | true => rfl
  | false => cases h

theorem requireNode_ok {id text : String} {node : CanvasNode}
    (h : requireNode g id text = .ok node) : findNode g id = some node := by
  obtain ⟨found, hfound, h⟩ := bind_ok h
  obtain ⟨-, -, hfound⟩ := bind_ok hfound
  cases hfound
  cases hfind : findNode g id with
  | none =>
    rw [hfind] at h
    cases h
  | some =>
    rw [hfind] at h
    exact congrArg some (Except.ok.inj h)

def workspaceOf (g : MediaGraph) (id : String) : Option String :=
  (findNode g id).map (·.workspaceId)

theorem checkEdge_ok {selector : MediaEdgeSelector} (h : checkEdge reads g req = .ok selector) :
    workspaceOf g req.sourceNodeId = some req.workspaceId ∧
      workspaceOf g req.targetNodeId = some req.workspaceId := by
  obtain ⟨source, hsource, h⟩ := bind_ok h
  obtain ⟨target, htarget, h⟩ := bind_ok h
  obtain ⟨-, -, h⟩ := bind_ok h
  obtain ⟨_, hshared, -⟩ := bind_ok h
  have hshared := ok_of_require hshared
  simp only [Bool.and_eq_true, decide_eq_true_eq] at hshared
  unfold workspaceOf
  rw [requireNode_ok hsource, requireNode_ok htarget]
  exact ⟨congrArg some hshared.1.1.1, congrArg some hshared.1.1.2⟩

theorem wouldCreateEdgeCycle_ok {source target : String} {cycle : Bool}
    (h : wouldCreateEdgeCycle g source target = .ok cycle) :
    ∃ workspaceId, workspaceOf g source = some workspaceId ∧
      search (links (listEdges g workspaceId)) source [target] [] = cycle := by
  obtain ⟨found, hfound, h⟩ := bind_ok h
  obtain ⟨-, -, hfound⟩ := bind_ok hfound
  cases hfound
  unfold workspaceOf
  cases hfind : findNode g source with
  | none =>
    rw [hfind] at h
    cases h
  | some =>
    rw [hfind] at h
    exact ⟨_, rfl, Except.ok.inj h⟩

theorem newEdge_ok {edge : MediaEdge} (h : newEdge reads g req = .ok edge) :
    edge.workspaceId = req.workspaceId ∧ edge.sourceNodeId = req.sourceNodeId ∧
      edge.targetNodeId = req.targetNodeId ∧
      workspaceOf g req.sourceNodeId = some req.workspaceId ∧
      workspaceOf g req.targetNodeId = some req.workspaceId ∧
      search (links (listEdges g req.workspaceId)) req.sourceNodeId [req.targetNodeId] [] =
        false := by
  obtain ⟨-, -, h⟩ := bind_ok h
  split at h
  · cases h
  obtain ⟨selector, hselector, h⟩ := bind_ok h
  obtain ⟨cycle, hcycle, h⟩ := bind_ok h
  obtain ⟨hsource, htarget⟩ := checkEdge_ok hselector
  obtain ⟨workspaceId, hworkspace, hsearch⟩ := wouldCreateEdgeCycle_ok hcycle
  cases hworkspace.symm.trans hsource
  split at h
  · cases h
  · next hnot =>
    cases h
    exact ⟨rfl, rfl, rfl, hsource, htarget, hsearch.trans (Bool.eq_false_of_not_eq_true hnot)⟩

theorem newEdge_cycle {text : String}
    (h : newEdge reads g req = .error (.coded "MEDIA_EDGE_CYCLE" text)) :
    req.sourceNodeId = req.targetNodeId ∨ ∃ workspaceId,
      search (links (listEdges g workspaceId)) req.sourceNodeId [req.targetNodeId] [] = true := by
  by_contra hno
  rw [not_or, not_exists] at hno
  have hports : NotCycle (validatePorts req) := by
    exact ((notCycle_validateId _ _).bind fun _ => notCycle_validateId _ _).bind fun _ =>
      (notCycle_validateId _ _).bind fun _ => (notCycle_validateId _ _).bind fun _ =>
        (notCycle_validateId _ _).bind fun _ => notCycle_validateId _ _
  refine (hports.bind fun _ => ?_ : NotCycle (newEdge reads g req)) text h
  rw [if_neg hno.1]
  refine (notCycle_checkEdge reads g req).bind fun selector => ?_
  cases hcycle : wouldCreateEdgeCycle g req.sourceNodeId req.targetNodeId with
  | error =>
    intro text heq
    refine (?_ : NotCycle (wouldCreateEdgeCycle g req.sourceNodeId req.targetNodeId)) text
      (hcycle.trans (congrArg _ (Except.error.inj heq)))
    refine (notCycle_getNode g _).bind fun found => ?_
    cases found with
    | none => exact notCycle_coded (by decide)
    | some => exact notCycle_ok _
  | ok cycle =>
    obtain ⟨workspaceId, -, hsearch⟩ := wouldCreateEdgeCycle_ok hcycle
    cases cycle with
    | false => exact notCycle_ok _
    | true => exact absurd hsearch (hno.2 workspaceId)

/-! ## all edges -/

def Placed (g : MediaGraph) : Prop :=
  ∀ e ∈ g.edges, workspaceOf g e.sourceNodeId = some e.workspaceId ∧
    workspaceOf g e.targetNodeId = some e.workspaceId

theorem edge_links {edges : List MediaEdge} {a b : String} : Edge (links edges) a b ↔
    ∃ e ∈ edges, e.sourceNodeId = a ∧ e.targetNodeId = b := by
  simp [Edge, links]

/-- the edges of other workspaces lead nowhere in this one -/
theorem reach_iff (h : Placed g) {workspaceId source target : String}
    (htarget : workspaceOf g target = some workspaceId) :
    ReflTransGen (Edge (links (listEdges g workspaceId))) target source ↔
      ReflTransGen (Edge (links g.edges)) target source := by
  constructor
  · refine fun hreach => ReflTransGen.mono (fun a b hedge => ?_) _ _ hreach
    obtain ⟨e, he, hab⟩ := edge_links.mp hedge
    exact edge_links.mpr ⟨e, (mem_filter.mp he).1, hab⟩
  intro hreach
  induction hreach using ReflTransGen.head_induction_on with
  | refl => exact .refl
  | head hedge _ ih =>
    obtain ⟨e, he, rfl, rfl⟩ := edge_links.mp hedge
    have hplaced := h e he
    cases hplaced.1.symm.trans htarget
    refine .head (edge_links.mpr ⟨e, mem_filter.mpr ⟨he, ?_⟩, rfl, rfl⟩) (ih hplaced.2)
    exact decide_eq_true rfl

theorem workspaceOf_modifyNode {id : String} {f : CanvasNode → CanvasNode}
    (hid : ∀ node, (f node).id = node.id) (hw : ∀ node, (f node).workspaceId = node.workspaceId)
    (id' : String) : workspaceOf (modifyNode g id f).2 id' = workspaceOf g id' := by
  unfold workspaceOf findNode modifyNode
  induction g.nodes with
  | nil => rfl
  | cons node nodes ih =>
    have hkept : ∀ c : Bool, (if c then f node else node).id = node.id ∧
        (if c then f node else node).workspaceId = node.workspaceId := by
      intro c
      cases c with
      | true => exact ⟨hid node, hw node⟩
      | false => exact ⟨rfl, rfl⟩
    obtain ⟨hid', hw'⟩ := hkept (node.id = id && node.deletedAt.isNone)
    rw [map_cons, find?_cons, find?_cons, hid']
    cases decide (node.id = id') with
    | true => exact congrArg some hw'
    | false => exact ih

def Quiet (g g' : MediaGraph) : Prop :=
  g'.edges ⊆ g.edges ∧ ∀ id w, workspaceOf g id = some w → workspaceOf g' id = some w

theorem quiet_refl (g : MediaGraph) : Quiet g g := ⟨List.Subset.refl _, fun _ _ h => h⟩

theorem quiet_modifyNode {id : String} {f : CanvasNode → CanvasNode}
    (hid : ∀ node, (f node).id = node.id) (hw : ∀ node, (f node).workspaceId = node.workspaceId) :
    Quiet g (modifyNode g id f).2 :=
  ⟨List.Subset.refl _, fun id' _ h => (workspaceOf_modifyNode hid hw id').trans h⟩

theorem quiet_createNode (reads : GraphReads) (req : CreateMediaNodeRequest) :
    Quiet g (createNode reads g req).2 := by
  unfold createNode
  split
  · exact quiet_refl g
  next node _ =>
  split
  · exact quiet_refl g
  refine ⟨List.Subset.refl _, fun id _ hw => ?_⟩
  unfold workspaceOf findNode at hw ⊢
  rw [find?_append]
  cases hfind : g.nodes.find? (·.id = id) with
  | none =>
    rw [hfind] at hw
    cases hw
  | some =>
    rw [hfind] at hw
    exact hw

theorem quiet_updateNode (reads : GraphReads) (id : String) (req : UpdateMediaNodeRequest) :
    Quiet g (updateNode reads g id req).2 := by
  have hset : Quiet g (modifyNode g id (setColumns req)).2 :=
    quiet_modifyNode (fun _ => rfl) fun _ => rfl
  unfold updateNode
  split
  · exact quiet_refl g
  by_cases hempty : req.isEmpty
  · rw [if_pos hempty]
    exact quiet_refl g
  rw [if_neg hempty]
  dsimp only
  split
  · exact hset
  · split
    · exact hset
    · exact hset

/-- a call adds no edge, or one that it has checked -/
theorem step_cases (g : MediaGraph) (call : GraphReads × GraphCall) :
    Quiet g (step g call) ∨ ∃ reads req edge, newEdge reads g req = .ok edge ∧
      step g call = { g with edges := g.edges ++ [edge] } := by
  obtain ⟨reads, call⟩ := call
  cases call with
  | createNode req => exact .inl (quiet_createNode reads req)
  | updateNode id req => exact .inl (quiet_updateNode reads id req)
  | deleteNode id =>
    refine .inl ?_
    show Quiet g (deleteNode reads g id).2
    unfold deleteNode
    split
    · exact quiet_refl g
    · exact quiet_modifyNode (fun _ => rfl) fun _ => rfl
  | createEdge req =>
    show Quiet g (createEdge reads g req).2 ∨ ∃ reads' req' edge, _ ∧
      (createEdge reads g req).2 = _
    unfold createEdge
    split
    · exact .inl (quiet_refl g)
    next edge hedge =>
    split
    · exact .inl (quiet_refl g)
    · exact .inr ⟨reads, req, edge, hedge, rfl⟩
  | deleteEdge id =>
    refine .inl ?_
    show Quiet g (deleteEdge g id).2
    unfold deleteEdge
    split
    · exact quiet_refl g
    · exact ⟨fun e he => (mem_filter.mp he).1, fun _ _ h => h⟩

structure Sound (g : MediaGraph) : Prop where
  placed : Placed g
  acyclic : Acyclic (links g.edges)

theorem Sound.step (h : Sound g) (call : GraphReads × GraphCall) : Sound (step g call) := by
  obtain ⟨hedges, hnodes⟩ | ⟨reads, req, edge, hedge, hstep⟩ := step_cases g call
  · constructor
    · intro e he
      obtain ⟨hsource, htarget⟩ := h.placed e (hedges he)
      exact ⟨hnodes _ _ hsource, hnodes _ _ htarget⟩
    intro a hcycle
    refine h.acyclic a (TransGen.mono (fun a b hab => ?_) _ _ hcycle)
    obtain ⟨e, he, hab⟩ := edge_links.mp hab
    exact edge_links.mpr ⟨e, hedges he, hab⟩
  obtain ⟨hworkspace, hsource, htarget, hs, ht, hsearch⟩ := newEdge_ok hedge
  rw [hstep]
  constructor
  · intro e he
    obtain he | he := mem_append.mp he
    · exact h.placed e he
    · obtain rfl := mem_singleton.mp he
      rw [hworkspace, hsource, htarget]
      exact ⟨hs, ht⟩
  refine h.acyclic.insert (s := req.sourceNodeId) (t := req.targetNodeId) ?_ ?_
  · intro a b hab
    obtain ⟨e, he, rfl, rfl⟩ := edge_links.mp hab
    obtain he | he := mem_append.mp he
    · exact .inl (edge_links.mpr ⟨e, he, rfl, rfl⟩)
    · obtain rfl := mem_singleton.mp he
      exact .inr ⟨hsource, htarget⟩
  · rw [← reach_iff h.placed ht, ← search_iff, hsearch]
    exact Bool.false_ne_true

end

/-- **The media graph stays acyclic**: after any calls the edges of all workspaces and layouts close
no cycle, and an edge is refused for a cycle only if it would close one -/
theorem graph_acyclic (calls : List (GraphReads × GraphCall)) :
    let g := run step ⟨[], []⟩ calls
    Acyclic (links g.edges) ∧ ∀ reads req text,
      (createEdge reads g req).1 = .error (.coded "MEDIA_EDGE_CYCLE" text) →
        ¬ Acyclic ((req.sourceNodeId, req.targetNodeId) :: links g.edges) := by
  intro g
  have hsound : Sound g := by
    refine run_inv (I := Sound) (fun g call h => h.step call) ⟨fun _ he => absurd he not_mem_nil,
      fun a hcycle => ?_⟩ calls
    obtain ⟨b, hedge, -⟩ := TransGen.head'_iff.mp hcycle
    exact not_mem_nil hedge
  refine ⟨hsound.acyclic, fun reads req text herror hacyclic => ?_⟩
  have hnew : newEdge reads g req = .error (.coded "MEDIA_EDGE_CYCLE" text) := by
    unfold createEdge at herror
    split at herror
    · next hnew => rw [hnew, Except.error.inj herror]
    · split at herror
      · cases Except.error.inj herror
      · cases herror
  have hfirst : Edge ((req.sourceNodeId, req.targetNodeId) :: links g.edges) req.sourceNodeId
      req.targetNodeId := mem_cons_self
  obtain hself | ⟨workspaceId, hsearch⟩ := newEdge_cycle hnew
  · rw [hself] at hfirst hacyclic
    exact hacyclic _ (.single hfirst)
  have hreach := (search_iff _ _ _).mp hsearch
  refine hacyclic req.sourceNodeId (TransGen.head' hfirst (ReflTransGen.mono ?_ _ _ hreach))
  intro a b hab
  obtain ⟨e, he, hab⟩ := edge_links.mp hab
  exact .tail _ (edge_links.mpr ⟨e, (mem_filter.mp he).1, hab⟩)

end CcPanes.MediaEdges

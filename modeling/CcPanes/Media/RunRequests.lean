import CcPanes.Foundation.Json
import CcPanes.Media.MediaService

/-!
# Requests for media runs

The checks of `create_run_with_provider_config_fingerprint` of `media_service.rs` up to its lookup
of the client request id, and the request that `replay_run` makes of an earlier run.
-/

namespace CcPanes.RunCreation
open MediaService

inductive MediaKind where
  | image | video
deriving DecidableEq

inductive MediaOperation where
  | textToImage | imageToImage | textToVideo | imageToVideo | edit | upscale | extend
deriving DecidableEq

inductive MediaCachePolicy where
  | readWrite | bypass | refresh
deriving DecidableEq

structure MediaProviderRef where
  providerId : String
  modelId : String
deriving DecidableEq

structure MediaNode where
  id : String
  workspaceId : String
  kind : MediaKind
  providerRef : Option MediaProviderRef
  parameters : Json
  deletedAt : Option String

structure MediaAsset where
  id : String
  workspaceId : String
  relativePath : String
  mimeType : String
  sizeBytes : Int
  sha256 : Option String
  width : Option Int
  height : Option Int
  durationMs : Option Int
  metadata : Json

structure CreateMediaRunRequest where
  nodeId : String
  operation : MediaOperation
  request : Json
  clientRequestId : Option String := none
  inputAssetIds : List String := []
  priority : Option Int := none
  cachePolicy : Option MediaCachePolicy := none

structure ReplayMediaRunRequest where
  prompt : Option String := none
  parameters : Option Json := none
  inputAssetIds : Option (List String) := none
  priority : Option Int := none
  cachePolicy : Option MediaCachePolicy := none
  clientRequestId : Option String := none

/-- a run as it is created; the columns that start empty are left out -/
structure CreatedRun where
  id : String
  nodeId : String
  operation : MediaOperation
  status : MediaRunStatus
  attempt : Nat
  priority : Int
  cachePolicy : MediaCachePolicy
  clientRequestId : Option String
  providerRef : Option MediaProviderRef
  request : Json
  progress : Option Int
  inputAssetIds : List String
  executionFingerprint : Option String
  cacheHit : Bool
  outputAssetIds : List String
  createdAt : String

namespace MediaKind

def asStr : MediaKind → String
  | image => "image"
  | video => "video"

end MediaKind

namespace MediaOperation

def asStr : MediaOperation → String
  | textToImage => "text_to_image"
  | imageToImage => "image_to_image"
  | textToVideo => "text_to_video"
  | imageToVideo => "image_to_video"
  | edit => "edit"
  | upscale => "upscale"
  | extend => "extend"

def tag : MediaOperation → String
  | textToImage => "textToImage"
  | imageToImage => "imageToImage"
  | textToVideo => "textToVideo"
  | imageToVideo => "imageToVideo"
  | edit => "edit"
  | upscale => "upscale"
  | extend => "extend"

def supportsKind (self : MediaOperation) (kind : MediaKind) : Bool :=
  match self with
  | textToImage | imageToImage => kind = .image
  | textToVideo | imageToVideo => kind = .video
  | edit | upscale | extend => true

def requiresInputAsset : MediaOperation → Bool
  | imageToImage | imageToVideo | edit | upscale | extend => true
  | _ => false

end MediaOperation

def MediaCachePolicy.allowsLookup (policy : MediaCachePolicy) : Bool := policy = .readWrite

structure MediaScope where
  workspaceId : String
  projectId : String
  projectPath : Option String

/-- The answers to the reads of one call.  `findProject` is there when a workspace service is. -/
structure MediaReads where
  getNode : String → Except String (Option MediaNode)
  getAsset : String → Except String (Option MediaAsset)
  findProject : Option (String → String → Except String Bool)

structure MediaCodec where
  jsonBytes : Json → Nat
  jsonFingerprint : Json → AppResult String
  validateGenerationParameters : Json → AppResult Unit

/-- `map_err(AppError::from)` -/
def fromRepo {α : Type} : Except String α → AppResult α
  | .ok a => .ok a
  | .error text => .error (.message none text)

def require (cond : Bool) (code text : String) : AppResult Unit :=
  if cond then .ok () else .error (.coded code text)

def mediaPriorityMin : Int := -100
def mediaPriorityMax : Int := 100
def maxJsonBytes : Nat := 1024 * 1024
def mediaScopeKey : String := "mediaScope"
def executionFingerprintVersion : String := "media-execution-v3"

def validateId (value field : String) : AppResult Unit :=
  require (validId value) "MEDIA_ID_INVALID" (field ++ " is invalid")

def validateJson (codec : MediaCodec) (value : Json) : AppResult Unit :=
  require (codec.jsonBytes value ≤ maxJsonBytes) "MEDIA_PARAMETERS_TOO_LARGE"
    "media JSON exceeds size limit"

def validateClientRequestId (value : Option String) : AppResult Unit :=
  require (value.all fun value => trim value ≠ "" && value.utf8ByteSize ≤ 256)
    "MEDIA_CLIENT_REQUEST_ID_INVALID" "clientRequestId is invalid"

def isSha256 (value : String) : Bool :=
  value.utf8ByteSize = 64 && value.toList.all fun c =>
    '0' ≤ c && c ≤ '9' || 'a' ≤ c && c ≤ 'f' || 'A' ≤ c && c ≤ 'F'

def validateProviderConfigFingerprint (value : Option String) : AppResult Unit :=
  require (value.all isSha256) "MEDIA_PROVIDER_CONFIG_FINGERPRINT_INVALID"
    "provider configuration fingerprint must be a SHA-256 digest"

def validatePriority (priority : Int) : AppResult Unit :=
  require (mediaPriorityMin ≤ priority && priority ≤ mediaPriorityMax) "MEDIA_PRIORITY_INVALID"
    "media priority must be between -100 and 100"

/-- `char::is_control` -/
def isControl (c : Char) : Bool := c.toNat < 0x20 || 0x7f ≤ c.toNat && c.toNat ≤ 0x9f

/-! ## scopes -/

def getEither (fields : List (String × Json)) (key key' : String) : Option Json :=
  ((Json.object fields).get key).or ((Json.object fields).get key')

def ensureRegisteredProject (reads : MediaReads) (workspaceId projectId : String) :
    AppResult Unit :=
  match reads.findProject with
  | none => .ok ()
  | some findProject => do
    let found ← fromRepo (findProject workspaceId projectId)
    require found "MEDIA_PROJECT_NOT_FOUND" "media project is not registered in the workspace"

def mediaScopeFromValue (reads : MediaReads) (expectedWorkspaceId : String) (value : Json) :
    AppResult (Option MediaScope) :=
  match (value.get mediaScopeKey).or (value.get "media_scope") with
  | none => .ok none
  | some scopeValue =>
    match scopeValue.asObject with
    | none => .error (.coded "MEDIA_SCOPE_INVALID" "mediaScope must be a JSON object")
    | some object =>
      match (getEither object "workspaceId" "workspace_id").bind Json.asStr,
          (getEither object "projectId" "project_id").bind Json.asStr with
      | none, _ => .error (.coded "MEDIA_SCOPE_INVALID" "mediaScope.workspaceId is required")
      | _, none => .error (.coded "MEDIA_SCOPE_INVALID" "mediaScope.projectId is required")
      | some workspaceId, some projectId => do
        validateId workspaceId "workspaceId"
        validateId projectId "projectId"
        require (workspaceId = expectedWorkspaceId) "MEDIA_WORKSPACE_MISMATCH"
          "media scope belongs to another workspace"
        let projectPath := (getEither object "projectPath" "project_path").bind Json.asStr
        require (projectPath.all fun path => path.utf8ByteSize ≤ 4096 && !path.toList.any isControl)
          "MEDIA_SCOPE_INVALID" "mediaScope.projectPath is invalid"
        ensureRegisteredProject reads workspaceId projectId
        .ok (some { workspaceId, projectId, projectPath })

def scopeFromRequest (reads : MediaReads) (workspaceId : String) (request : Json) :
    AppResult (Option MediaScope) := do
  let inner ← match request.get "parameters" with
    | some parameters => mediaScopeFromValue reads workspaceId parameters
    | none => .ok none
  match inner with
  | some scope => .ok (some scope)
  | none => mediaScopeFromValue reads workspaceId request

def scopeValue (scope : MediaScope) : Json :=
  let object := Json.insertField "projectId" (.string scope.projectId)
    (Json.insertField "workspaceId" (.string scope.workspaceId) [])
  .object (match scope.projectPath with
    | some path => Json.insertField "projectPath" (.string path) object
    | none => object)

/-- the scope of the node goes into the parameters of a request that has none -/
def withNodeScope (request : Json) (nodeScope : MediaScope) : AppResult Json :=
  match request.asObject with
  | none =>
    .error (.coded "MEDIA_SCOPE_INVALID" "a scoped media run request must be a JSON object")
  | some object =>
    match ((request.get "parameters").getD (.object [])).asObject with
    | none => .error (.coded "MEDIA_PARAMETERS_INVALID" "media parameters must be a JSON object")
    | some parameters =>
      let parameters := Json.insertField mediaScopeKey (scopeValue nodeScope) parameters
      .ok (.object (Json.insertField "parameters" (.object parameters) object))

def scopedRequest (request : Json) (nodeScope requestScope : Option MediaScope) :
    AppResult Json :=
  match nodeScope, requestScope with
  | some nodeScope, some requestScope =>
    if nodeScope.workspaceId ≠ requestScope.workspaceId ∨
        nodeScope.projectId ≠ requestScope.projectId then
      .error (.coded "MEDIA_PROJECT_MISMATCH" "media node and run belong to different projects")
    else .ok request
  | some nodeScope, none => withNodeScope request nodeScope
  | none, _ => .ok request

/-! ## inputs -/

def inputKind (nodeKind : MediaKind) : MediaOperation → Option MediaKind
  | .imageToImage | .imageToVideo => some .image
  | .edit | .upscale | .extend => some nodeKind
  | .textToImage | .textToVideo => none

/-- `text.split(sep).next()` -/
def firstPart (sep : Char) (text : String) : String :=
  String.ofList (text.toList.takeWhile (· ≠ sep))

def mimeMatchesKind (mime : String) (kind : Option MediaKind) : Bool :=
  let normalized := (trim (firstPart ';' mime)).map Char.toLower
  match kind with
  | some .image => "image/".toList.isPrefixOf normalized.toList
  | some .video => "video/".toList.isPrefixOf normalized.toList
  | none => true

/-- the checks on one input, in the project of the run if there is one -/
def checkInput (reads : MediaReads) (node : MediaNode) (operation : MediaOperation)
    (effectiveScope : Option MediaScope) (assetId : String) : AppResult MediaAsset := do
  let found ← fromRepo (reads.getAsset assetId)
  match found with
  | none => .error (.coded "MEDIA_ASSET_NOT_FOUND" "input asset not found")
  | some asset =>
    require (asset.workspaceId = node.workspaceId) "MEDIA_WORKSPACE_MISMATCH"
      "input asset belongs to another workspace"
    let assetScope ← mediaScopeFromValue reads asset.workspaceId asset.metadata
    match effectiveScope, assetScope with
    | some _, none =>
      .error (.coded "MEDIA_PROJECT_MISMATCH" "input asset has no project scope")
    | some expected, some assetScope =>
      require (assetScope.projectId = expected.projectId) "MEDIA_PROJECT_MISMATCH"
        "input asset belongs to another project"
    | none, _ => .ok ()
    require (mimeMatchesKind asset.mimeType (inputKind node.kind operation))
      "MEDIA_INPUT_KIND_MISMATCH" "input asset type does not match the media operation"
    require (firstPart '/' asset.relativePath = node.workspaceId) "MEDIA_PATH_INVALID"
      "asset path must stay inside its workspace directory"
    .ok asset

/-- the loop over the inputs; `seen` has those before -/
def checkInputs (reads : MediaReads) (node : MediaNode) (operation : MediaOperation)
    (effectiveScope : Option MediaScope) : List String → List String → AppResult (List MediaAsset)
  | _, [] => .ok []
  | seen, assetId :: assetIds => do
    validateId assetId "assetId"
    require (assetId ∉ seen) "MEDIA_INPUT_DUPLICATE" "an input asset may only be referenced once"
    let asset ← checkInput reads node operation effectiveScope assetId
    let assets ← checkInputs reads node operation effectiveScope (assetId :: seen) assetIds
    .ok (asset :: assets)

def assetRole (asset : MediaAsset) : Option Json :=
  (asset.metadata.get "role").or (asset.metadata.get "assetRole")

def validateInputRoleParameters (request : Json) (inputAssets : List MediaAsset) :
    AppResult Unit :=
  match request.asObject with
  | none => .ok ()
  | some object =>
    let parameters := ((request.get "parameters").bind Json.asObject).getD object
    match getEither parameters "maskInputIndex" "mask_input_index" with
    | none => .ok ()
    | some rawIndex =>
      match rawIndex.asI64 with
      | none =>
        .error (.coded "MEDIA_GENERATION_PARAMETER_INVALID" "maskInputIndex must be an integer")
      | some index =>
        match if index < 0 then none else inputAssets[index.toNat]? with
        | none =>
          .error (.coded "MEDIA_GENERATION_PARAMETER_INVALID"
            "maskInputIndex does not reference an input asset")
        | some asset =>
          require (((assetRole asset).bind Json.asStr).all (· = "mask"))
            "MEDIA_GENERATION_PARAMETER_INVALID"
            "maskInputIndex must reference an asset marked as a mask"

/-! ## the fingerprint -/

def number (n : Int) : Json := .number (toString n)

def fingerprintInput (asset : MediaAsset) : Json :=
  let content := match asset.sha256 with
    | some sha256 => Json.ofFields [("sha256", .string sha256)]
    | none => Json.ofFields [("relativePath", .string asset.relativePath),
        ("sizeBytes", number asset.sizeBytes)]
  Json.ofFields [("content", content), ("mimeType", .string asset.mimeType),
    ("width", Json.ofOption number asset.width), ("height", Json.ofOption number asset.height),
    ("durationMs", Json.ofOption number asset.durationMs),
    ("role", Json.ofOption id (assetRole asset))]

/-- the request without the fields of its history -/
def withoutLineage : Json → Json
  | .object fields =>
    .object (Json.removeField "replay_of_run_id" (Json.removeField "replayOfRunId" fields))
  | request => request

def providerJson (provider : MediaProviderRef) : Json :=
  Json.ofFields [("providerId", .string provider.providerId), ("modelId", .string provider.modelId)]

def executionFingerprint (codec : MediaCodec) (node : MediaNode) (operation : MediaOperation)
    (request : Json) (inputAssets : List MediaAsset) (providerConfigFingerprint : Option String) :
    AppResult String :=
  codec.jsonFingerprint (Json.ofFields [("version", .string executionFingerprintVersion),
    ("kind", .string node.kind.asStr), ("operation", .string operation.tag),
    ("provider", Json.ofOption providerJson node.providerRef),
    ("providerConfigFingerprint", Json.ofOption .string providerConfigFingerprint),
    ("nodeParameters", node.parameters), ("request", withoutLineage request),
    ("inputs", .array (inputAssets.map fingerprintInput))])

/-- what a call has read and checked when it looks its client request id up -/
structure Prepared where
  nodeId : String
  node : MediaNode
  operation : MediaOperation
  request : Json
  clientRequestId : Option String
  inputAssetIds : List String
  priority : Int
  cachePolicy : MediaCachePolicy
  executionFingerprint : String

def prepare (codec : MediaCodec) (reads : MediaReads) (req : CreateMediaRunRequest)
    (providerConfigFingerprint : Option String) : AppResult Prepared := do
  validateId req.nodeId "nodeId"
  validateJson codec req.request
  validateClientRequestId req.clientRequestId
  validateProviderConfigFingerprint providerConfigFingerprint
  let priority := req.priority.getD 0
  validatePriority priority
  let cachePolicy := req.cachePolicy.getD .readWrite
  let found ← fromRepo (reads.getNode req.nodeId)
  match found with
  | none => .error (.coded "MEDIA_NODE_NOT_FOUND" "media node not found")
  | some node =>
    require node.deletedAt.isNone "MEDIA_NODE_DELETED" "media node is deleted"
    let nodeScope ← mediaScopeFromValue reads node.workspaceId node.parameters
    let requestScope ← scopeFromRequest reads node.workspaceId req.request
    let request ← scopedRequest req.request nodeScope requestScope
    codec.validateGenerationParameters request
    require (req.operation.supportsKind node.kind) "MEDIA_OPERATION_KIND_MISMATCH"
      ("operation " ++ req.operation.asStr ++ " does not produce " ++ node.kind.asStr)
    require (!(req.operation.requiresInputAsset && req.inputAssetIds.isEmpty))
      "MEDIA_INPUT_REQUIRED" "this media operation requires at least one input asset"
    require (!((inputKind node.kind req.operation).isNone && !req.inputAssetIds.isEmpty))
      "MEDIA_INPUT_UNEXPECTED" "this media operation does not accept input assets"
    let inputAssets ← checkInputs reads node req.operation (requestScope.or nodeScope) []
      req.inputAssetIds
    validateInputRoleParameters request inputAssets
    let fingerprint ← executionFingerprint codec node req.operation request inputAssets
      providerConfigFingerprint
    .ok { nodeId := req.nodeId, node, operation := req.operation, request,
          clientRequestId := req.clientRequestId, inputAssetIds := req.inputAssetIds, priority,
          cachePolicy, executionFingerprint := fingerprint }

def Prepared.agrees (body : Prepared) (run : CreatedRun) : Bool :=
  run.nodeId = body.nodeId && run.operation = body.operation && run.request = body.request &&
    run.inputAssetIds = body.inputAssetIds && run.providerRef = body.node.providerRef &&
    run.priority = body.priority && run.cachePolicy = body.cachePolicy &&
    run.executionFingerprint = some body.executionFingerprint

def mergeReplayParameters (codec : MediaCodec) (object : List (String × Json)) (parameters : Json) :
    AppResult (List (String × Json)) := do
  validateJson codec parameters
  match parameters.asObject with
  | none =>
    .error (.coded "MEDIA_PARAMETERS_INVALID" "replay parameters must be a JSON object")
  | some next =>
    match (Json.object object).get "parameters" with
    | some current =>
      match current.asObject with
      | none =>
        .error (.coded "MEDIA_PARAMETERS_INVALID" "existing media parameters must be a JSON object")
      | some currentObject =>
        .ok (Json.insertField "parameters"
          (.object (next.foldl (fun o f => Json.insertField f.1 f.2 o) currentObject)) object)
    | none => .ok (next.foldl (fun o f => Json.insertField f.1 f.2 o) object)

/-- the request of a replay; `newId` is the client request id of a replay that names none -/
def replayRequest (codec : MediaCodec) (source : CreatedRun) (overrides : ReplayMediaRunRequest)
    (newId : String) : AppResult CreateMediaRunRequest := do
  let object := source.request.asObject.getD []
  let object := match overrides.prompt with
    | some prompt => Json.insertField "prompt" (.string prompt) object
    | none => object
  let object ← match overrides.parameters with
    | some parameters => mergeReplayParameters codec object parameters
    | none => .ok object
  let request := Json.object (Json.insertField "replayOfRunId" (.string source.id) object)
  .ok { nodeId := source.nodeId, operation := source.operation, request,
        clientRequestId := some (overrides.clientRequestId.getD newId),
        inputAssetIds := overrides.inputAssetIds.getD source.inputAssetIds,
        priority := overrides.priority.or (some source.priority),
        cachePolicy := overrides.cachePolicy.or (some source.cachePolicy) }

end CcPanes.RunCreation

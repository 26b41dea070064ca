import CcPanes.TaskBindings.Models

/-!
# The patch of a task binding

`task_binding_patch_to_update_request` and `apply_json_merge_patch` of `task_binding_service.rs`: an
update request is read from the fields of a patch that a user may set, and the metadata of the patch
are merged into those of the binding.

What the JSON library says is a parameter: the length of a value's text, and the text of the error
for a field of the wrong type.
-/

namespace CcPanes.TaskBindings

structure Serde where
  vecLen : Json → Nat
  typeError : String → Json → String

def taskBindingPatchMaxBytes : Nat := 64 * 1024
def taskBindingMergePatchMaxDepth : Nat := 16

def failure (text : String) : AppError := .message none text

def tooDeep : AppError :=
  failure ("TaskBinding metadata patch depth must be <= " ++ toString taskBindingMergePatchMaxDepth)

mutual

def applyJsonMergePatch (depth : Nat) (target : Json) : Json → AppResult Json
  | .object patch =>
    if depth > taskBindingMergePatchMaxDepth then .error tooDeep
    else (applyMembers depth (target.asObject.getD []) patch).map .object
  | other => if depth > taskBindingMergePatchMaxDepth then .error tooDeep else .ok other

def applyMembers (depth : Nat) (target : List (String × Json)) :
    List (String × Json) → AppResult (List (String × Json))
  | [] => .ok target
  | (key, value) :: patch =>
    if value = .null then applyMembers depth (Json.removeField key target) patch
    else
      match applyJsonMergePatch (depth + 1) (((Json.object target).get key).getD .null) value with
      | .ok member => applyMembers depth (Json.insertField key member target) patch
      | .error e => .error e

end

/-! ## the request -/

/-- the words of `TaskBindingStatus` -/
def statusOfText : String → Option TaskBindingStatus
  | "pending" => some .pending
  | "running" => some .running
  | "waiting" => some .waiting
  | "completed" => some .completed
  | "failed" => some .failed
  | _ => none

/-- the word, or an object with the word and nothing in it -/
def statusOfJson : Json → Option TaskBindingStatus
  | .string text => statusOfText text
  | .object [(text, .null)] => statusOfText text
  | _ => none

def asI32 (value : Json) : Option Int :=
  value.asI64.filter fun n => -2 ^ 31 ≤ n && n < 2 ^ 31

section
variable (serde : Serde)

def optionalField {α : Type} (read : Json → Option α) (field : String) : Json → AppResult (Option α)
  | .null => .ok none
  | value =>
    match read value with
    | some a => .ok (some a)
    | none => .error (failure ("Invalid TaskBinding patch: " ++ serde.typeError field value))

def setField (req : UpdateTaskBindingRequest) : String × Json → AppResult UpdateTaskBindingRequest
  | ("title", value) => do
    return { req with title := ← optionalField serde Json.asStr "title" value }
  | ("status", value) => do
    return { req with status := ← optionalField serde statusOfJson "status" value }
  | ("progress", value) => do
    return { req with progress := ← optionalField serde asI32 "progress" value }
  | ("completionSummary", value) => do
    let completionSummary ← optionalField serde Json.asStr "completionSummary" value
    return { req with completionSummary := completionSummary }
  | ("exitCode", value) => do
    return { req with exitCode := ← optionalField serde asI32 "exitCode" value }
  | ("sortOrder", value) => do
    return { req with sortOrder := ← optionalField serde asI32 "sortOrder" value }
  | ("prompt", value) => do
    return { req with prompt := ← optionalField serde Json.asStr "prompt" value }
  | _ => return req

def patchFields : List String :=
  ["title", "status", "progress", "completionSummary", "exitCode", "sortOrder", "prompt"]

def taskBindingPatchToUpdateRequest (existing : TaskBinding) (patch : Json) :
    AppResult UpdateTaskBindingRequest :=
  if serde.vecLen patch > taskBindingPatchMaxBytes then
    .error (failure ("TaskBinding patch must be <= " ++ toString taskBindingPatchMaxBytes ++
      " bytes"))
  else
    match patch.asObject with
    | none => .error (failure "TaskBinding patch must be a JSON object")
    | some fields => do
      let request ← (fields.filter fun f => f.1 ∈ patchFields).foldlM (setField serde) {}
      match patch.get "metadata" with
      | none => return request
      | some metadataPatch =>
        let metadata ← applyJsonMergePatch 0 (existing.metadata.getD (.object [])) metadataPatch
        return { request with metadata := some metadata }

end

end CcPanes.TaskBindings
